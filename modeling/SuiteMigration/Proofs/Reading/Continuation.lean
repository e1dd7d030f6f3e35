import Mathlib.Tactic.Common
import SuiteMigration.Proofs.Reading.Operands
import SuiteMigration.Proofs.Reading.Statements

/-!
# An operator behind an expression

The second stream may go on with an operator behind the way. There the expression that the grammar
reads goes on as well: the operator stands behind the operators of the expression, unless the last
operand is marked with `try` or `await` and takes the operator for itself.

## Main definitions

* `Expr.leavesRoom` - an operator behind the expression stands at its top
* `Passage.Continues` - what is read behind the way
* `Parser.AllContinue` - expressions and operands go on behind the way

## Main results

* `Parser.allContinue` - with every amount of fuel they do
-/

namespace SuiteMigration

variable {passage : Passage} {cursor cursor' next last : Cursor} {more : List OperatorTerm}

/-! ### Room for an operator -/

/-- An operator behind the expression stands at its top, behind its marks. -/
def Expr.leavesRoom : Expr → Bool
  | .trying _ _ operand => operand.leavesRoom
  | .awaiting _ operand => operand.leavesRoom
  | .sequence operands _ => operands.getLast?.all fun operand => !operand.takesOperator
  | expr => !expr.takesOperator

theorem Expr.leavesRoom_ofTerms (first : Expr) {rest : List OperatorTerm} (some : rest ≠ []) :
    (Expr.ofTerms first rest).leavesRoom =
      rest.getLast?.all fun term => !term.operand.takesOperator := by
  cases rest with
  | nil => exact absurd rfl some
  | cons term later =>
    simp only [ofTerms, List.isEmpty_cons, leavesRoom, List.map_cons, Bool.false_eq_true, if_false]
    rw [List.getLast?_cons_cons, ← List.map_cons, List.getLast?_map, Option.all_map]

theorem Expr.operators_of_isEmpty {expr : Expr} (none : expr.isEmpty = true) :
    expr.operators = [] ∧ expr.leavesRoom = true := by
  unfold isEmpty at none
  split at none
  · exact ⟨rfl, rfl⟩
  · cases none

theorem Expr.operators_of_isPostfix {expr : Expr} (isPostfix : expr.isPostfix = true) :
    expr.operators = [] ∧ expr.takesOperator = false ∧ expr.leavesRoom = true := by
  cases expr with
  | trying | awaiting | prefixed | sequence => cases isPostfix
  | _ => exact ⟨rfl, rfl, rfl⟩

namespace Parser

variable {fuel : Nat} {position : Position} {expr : Expr}

/-- No operators stand at the top of an operand, unless it is marked. -/
theorem operators_of_unary (given : Parser.unary fuel position cursor = some (expr, next))
    (leaves : expr.takesOperator = false) : expr.operators = [] ∧ expr.leavesRoom = true := by
  cases fuel with
  | zero => cases given
  | succ fuel =>
    rcases unary_eq_some given with ⟨-, _, _, operand, rfl, -⟩ | ⟨-, operand, rfl, -⟩ |
      ⟨-, _, rfl, -⟩ | ⟨-, _, rfl, -⟩ | isPostfix
    · have none : operand.isEmpty = true := by simpa [Expr.takesOperator] using leaves
      simpa only [Expr.operators, Expr.leavesRoom] using Expr.operators_of_isEmpty none
    · have none : operand.isEmpty = true := by simpa [Expr.takesOperator] using leaves
      simpa only [Expr.operators, Expr.leavesRoom] using Expr.operators_of_isEmpty none
    · exact ⟨rfl, by simp [Expr.leavesRoom, leaves]⟩
    · exact ⟨rfl, by simp [Expr.leavesRoom, leaves]⟩
    · exact (Expr.operators_of_isPostfix isPostfix).imp_right And.right

/-- An operator that is read has been ahead. -/
theorem fewer_of_binaryOperator {ternaries : Nat} {operator : Token} (proper : cursor.Proper)
    (given : binaryOperator? ternaries cursor = some (some operator, next)) :
    next.left < cursor.left := by
  rcases ((agree_binaryOperator proper ternaries).transfer given).2 with ⟨none, -⟩ | ⟨_, -, takes⟩
  · cases none
  · exact takes.fewer

theorem forward_operand {operator : Token} (given : operand fuel position operator cursor =
    some (expr, next)) : cursor.Passes next := by
  rw [operand] at given
  split at given
  · exact (Forward.map (.run _)) _ _ _ given
  · exact (allForward fuel).unary position _ _ _ given

/-- Operators that are read have been ahead. -/
theorem fewer_of_terms {ternaries : Nat} {term : OperatorTerm} {later : List OperatorTerm}
    (proper : cursor.Proper)
    (given : Parser.terms fuel position ternaries cursor = some (term :: later, next)) :
    next.left < cursor.left := by
  cases fuel with
  | zero => cases given
  | succ fuel =>
    obtain ⟨second, third, readOperator, readOperand, readLater⟩ := terms_cons_iff.1 given
    have fewer := fewer_of_binaryOperator proper readOperator
    have forward := (forward_operand readOperand).suffix.length_le
    have onward := ((allForward fuel).terms position _ _ _ _ readLater).suffix.length_le
    exact Nat.lt_of_le_of_lt (Nat.le_trans onward forward) fewer

/-- What is read up to a place that is no colon is read in the same way inside ternaries. -/
theorem terms_add_ternaries {ternaries : Nat} {terms : List OperatorTerm}
    (given : Parser.terms fuel position ternaries cursor = some (terms, next))
    (noColon : next.isAt .colon = false) (extra : Nat) :
    Parser.terms fuel position (ternaries + extra) cursor = some (terms, next) := by
  -- A colon is an operator inside more ternaries only where it ends the operators outside of them.
  have same {operator : Option Token} {cursor second : Cursor} {ternaries : Nat}
      (read : binaryOperator? ternaries cursor = some (operator, second))
      (safe : cursor.isAt .colon = true → ternaries ≠ 0) :
      binaryOperator? (ternaries + extra) cursor = some (operator, second) := by
    have test : (cursor.isAt .colon && (ternaries + extra) != 0) =
        (cursor.isAt .colon && ternaries != 0) := by
      cases colon : cursor.isAt .colon with
      | false => rfl
      | true =>
        have outside : (ternaries != 0) = true := bne_iff_ne.2 (safe colon)
        have inside : (ternaries + extra != 0) = true := bne_iff_ne.2 (by have := safe colon; omega)
        rw [outside, inside]
    rw [binaryOperator?, get_bind] at read ⊢
    rwa [test]
  induction fuel generalizing ternaries cursor terms with
  | zero => cases given
  | succ fuel ih =>
    cases terms with
    | nil =>
      obtain rfl := eq_of_terms_nil given
      exact terms_nil_iff.2 (same (terms_nil_iff.1 given) fun colon => absurd colon (by simp [noColon]))
    | cons term later =>
      obtain ⟨second, third, readOperator, readOperand, readLater⟩ := terms_cons_iff.1 given
      have pos : cursor.isAt .colon = true → ternaries ≠ 0 := by
        rintro colon rfl
        rw [Cursor.isAt, beq_iff_eq] at colon
        rw [binaryOperator?, get_bind, Cursor.atOperator, Cursor.isAt, Cursor.isAt,
          Cursor.atKeyword, Cursor.atKeyword, Token.isKeyword, Token.isKeyword, colon] at readOperator
        cases (pure_eq_some readOperator).1
      have after : ternariesAfter (ternaries + extra) term.operator =
          ternariesAfter ternaries term.operator + extra := by
        rw [ternariesAfter, ternariesAfter]
        split
        · omega
        split
        · next colon =>
          have pos := ternaries_pos_of_colon readOperator (beq_iff_eq.1 colon)
          omega
        · rfl
      exact terms_cons_iff.2 ⟨second, third, same readOperator pos, readOperand,
        after ▸ ih readLater⟩

/-- What is read behind an operator between operands is read behind it with any other fuel that is
enough, and inside ternaries too. -/
theorem terms_of_unary {less : Nat} {sign endOfFile : Token} {back : List Token} {operand : Expr}
    {middle : Cursor} {rest : List OperatorTerm} (kind : sign.kind = .operator)
    (proper : endOfFile.kind = .endOfFile) (enough : 24 * back.length + 3 ≤ fuel)
    (read : Parser.unary fuel .free ⟨some sign, back, endOfFile⟩ = some (operand, middle))
    (readRest : Parser.terms fuel .free 0 middle = some (rest, next))
    (ended : next.peek.kind = .endOfFile) (ternaries : Nat) (pending : cursor.pending = sign :: back)
    (sameEnd : cursor.endOfFile = endOfFile) (role : cursor.role = .between)
    (suffices_ : 24 * cursor.left + 1 ≤ less) :
    Parser.terms less .free ternaries cursor = some (⟨sign, operand⟩ :: rest, next) := by
  have left : cursor.left = back.length + 1 := by rw [Cursor.left, pending, List.length_cons]
  have passes := (allForward fuel).unary .free _ _ _ read
  have fewer := passes.suffix.length_le
  obtain ⟨less, rfl⟩ : ∃ more, less = more + 1 := Nat.exists_eq_succ_of_ne_zero (by omega)
  refine terms_cons_iff.2 ⟨⟨some sign, back, endOfFile⟩, middle, ?_, ?_, ?_⟩
  · have between : cursor.atOperator .between = true := by
      rw [Cursor.atOperator, role, Cursor.isAt, Cursor.peek, pending, List.headD_cons, kind]
      rfl
    rw [binaryOperator?, get_bind, between, Bool.true_or, if_pos rfl]
    exact congrArg (fun read : Token × Cursor => some (some read.1, read.2))
      (sameEnd ▸ Cursor.bump_of_pending pending)
  · have isOperator : isCast sign = false := by
      rw [isCast, kind]
      rfl
    rw [Parser.operand, isOperator, if_neg Bool.false_ne_true]
    refine (((settled fuel less).unary ⟨some sign, back, endOfFile⟩ .free
      ⟨proper, enough, ?_⟩).transfer read).1
    simp only [Cursor.left] at *
    omega
  · have noColon : next.isAt .colon = false := by
      rw [Cursor.isAt, ended]
      rfl
    -- The terms were read with other fuel and no open ternary; neither matters at the end of the
    -- text.
    have again := (((settled fuel less).terms middle .free 0
      ⟨passes.proper proper, by simp only [Cursor.left] at *; omega,
        by simp only [Cursor.left] at *; omega⟩).transfer readRest).1
    have more := terms_add_ternaries again noColon (ternariesAfter ternaries sign)
    rwa [Nat.zero_add] at more

end Parser

/-! ### What comes behind the way -/

/-- As much is left of the way in both streams. -/
theorem Level.left_eq (level : Level passage cursor cursor') :
    cursor.left + passage.stop'.left = cursor'.left + passage.stop.left := by
  by_cases inside : passage.Inside cursor
  · obtain ⟨_, later, _, later', -, pending, pending', -, next, -⟩ := level.inside inside
    have same := next.left_eq
    simp only [Cursor.left, pending, pending', List.length_cons] at same ⊢
    omega
  · rcases level.cases with ⟨_, _, _, _, here, -⟩ | ⟨-, abreast⟩
    · exact absurd here inside
    · exact abreast.left_eq

theorem Level.proper (level : Level passage cursor cursor') (ends : passage.Ends) :
    cursor.Proper ∧ cursor'.Proper := by
  by_cases inside : passage.Inside cursor
  · obtain ⟨_, _, _, _, -, -, -, -, next, -⟩ := level.inside inside
    exact next.proper ends
  · rcases level.cases with ⟨_, _, _, _, here, -⟩ | ⟨-, abreast⟩
    · exact absurd here inside
    · exact abreast.proper ends

/-- From the end of the way on the second stream has these operators, with their operands, and then it
ends. -/
structure Passage.Continues (passage : Passage) (more : List OperatorTerm) (last : Cursor) :
    Prop where
  terms : ∀ {fuel : Nat} (ternaries : Nat) {next next' : Cursor}, Abreast passage next next' →
    ¬ passage.Inside next → 24 * next'.left + 1 ≤ fuel →
    Parser.terms fuel .free ternaries next' = some (more, last)
  some : more ≠ []
  ended : last.peek.kind = .endOfFile

namespace Parser

/-- With the given fuel what is read up to the end of the way goes on behind it in the second stream,
where an operator comes next. -/
structure AllContinue (passage : Passage) (more : List OperatorTerm) (last : Cursor) (fuel : Nat) :
    Prop where
  expr : ∀ {cursor cursor' next : Cursor} {answer : Expr}, Level passage cursor cursor' →
    Parser.expr fuel .free cursor = some (answer, next) → answer.isEmpty = false →
    Whole answer.tokens → next.left = passage.stop.left → 24 * cursor'.left + 4 ≤ fuel →
    ∃ answer', Parser.expr fuel .free cursor' = some (answer', last) ∧ answer'.isEmpty = false ∧
      answer'.operators = answer.operators ++
        if answer.leavesRoom then more.map fun term => term.operator.text else []
  terms : ∀ {cursor cursor' next : Cursor} {answer : List OperatorTerm} {ternaries : Nat},
    Abreast passage cursor cursor' →
    Parser.terms fuel .free ternaries cursor = some (answer, next) →
    Whole (tokensOfTerms answer) → next.left = passage.stop.left → 24 * cursor'.left + 1 ≤ fuel →
    ∃ answer', Parser.terms fuel .free ternaries cursor' = some (answer', last) ∧
      (answer'.map fun term => term.operator.text) = (answer.map fun term => term.operator.text) ++
        if answer.getLast?.all fun term => !term.operand.takesOperator then
          more.map fun term => term.operator.text else []
  unary : ∀ {cursor cursor' next : Cursor} {answer : Expr}, Level passage cursor cursor' →
    Parser.unary fuel .free cursor = some (answer, next) → answer.takesOperator = true →
    Whole answer.tokens → next.left = passage.stop.left → 24 * cursor'.left + 3 ≤ fuel →
    ∃ answer', Parser.unary fuel .free cursor' = some (answer', last) ∧ answer'.isEmpty = false ∧
      answer'.operators = answer.operators ++
        if answer.leavesRoom then more.map fun term => term.operator.text else []

namespace AllContinue

variable {fuel : Nat} (ends : passage.Ends) (continues : passage.Continues more last)
  (grammar : AllContinue passage more last fuel)

theorem zero : AllContinue passage more last 0 where
  expr := fun _ given => nomatch given
  terms := fun _ given => nomatch given
  unary := fun _ given => nomatch given

/-- An expression is read if its first operand and the others are. -/
theorem expr_of_parts {first : Expr} {rest : List OperatorTerm}
    (readFirst : Parser.unary fuel .free cursor = some (first, next)) (nonempty : first.isEmpty = false)
    (readRest : Parser.terms fuel .free 0 next = some (rest, last)) :
    Parser.expr (fuel + 1) .free cursor = some (.ofTerms first rest, last) := by
  rw [Parser.expr, bind_apply readFirst, nonempty, if_neg Bool.false_ne_true, bind_apply readRest]
  rfl

/-- Behind the first operand less is left. -/
theorem fewer_of_unary {middle middle' : Cursor} {first : Expr}
    (readFirst : Parser.unary fuel .free cursor = some (first, middle))
    (level : Level passage cursor cursor') (abreast : Abreast passage middle middle') :
    middle'.left ≤ cursor'.left := by
  have passes := ((allForward fuel).unary .free _ _ _ readFirst).suffix.length_le
  have sides := level.left_eq
  have sides' := abreast.left_eq
  simp only [Cursor.left] at *
  omega

/-- Behind a mark or a prefix less is left. -/
theorem fewer_of_mark {middle middle' : Cursor} (level : Level passage cursor cursor')
    (inside : passage.Inside cursor) (passes : cursor.bump.2.Passes middle)
    (abreast : Abreast passage middle middle') (enough : 24 * cursor'.left + 3 ≤ fuel + 1) :
    24 * middle'.left + 4 ≤ fuel := by
  obtain ⟨_, _, _, _, -, pending, -⟩ := level.inside inside
  have passes := passes.suffix.length_le
  have sides := level.left_eq
  have sides' := abreast.left_eq
  rw [Cursor.bump_of_pending pending] at passes
  simp only [Cursor.left, pending, List.length_cons] at *
  omega

include grammar

/-- The last operand takes the operator with it. -/
theorem operand {operator operator' : Token} {answer : Expr} (like : operator.Like operator')
    (abreast : Abreast passage cursor cursor')
    (given : Parser.operand fuel .free operator cursor = some (answer, next))
    (takes : answer.takesOperator = true) (whole : Whole answer.tokens)
    (ended : next.left = passage.stop.left) (enough : 24 * cursor'.left + 3 ≤ fuel) :
    ∃ answer', Parser.operand fuel .free operator' cursor' = some (answer', last) := by
  have cast : isCast operator = isCast operator' := by
    rw [isCast, isCast, like.kind, like.text]
  rw [Parser.operand] at given ⊢
  rw [← cast]
  split at given
  · obtain ⟨_, -, rfl⟩ := map_eq_some given
    cases takes
  · next isOperand =>
    rw [if_neg isOperand]
    obtain ⟨answer', read', -⟩ := grammar.unary (.later abreast) given takes whole ended enough
    exact ⟨answer', read'⟩

include ends

/-- An operand with others behind it goes on behind the last of them. -/
theorem expr_followed {first : Expr} {term : OperatorTerm} {later : List OperatorTerm}
    {middle : Cursor} (level : Level passage cursor cursor')
    (readFirst : Parser.unary fuel .free cursor = some (first, middle)) (some : first.isEmpty = false)
    (readRest : Parser.terms fuel .free 0 middle = .some (term :: later, next))
    (whole : Whole (Expr.ofTerms first (term :: later)).tokens)
    (ended : next.left = passage.stop.left) (enough : 24 * cursor'.left + 4 ≤ fuel + 1) :
    ∃ answer', Parser.expr (fuel + 1) .free cursor' = .some (answer', last) ∧
      answer'.isEmpty = false ∧ answer'.operators = (Expr.ofTerms first (term :: later)).operators ++
        if (Expr.ofTerms first (term :: later)).leavesRoom then
          more.map fun term => term.operator.text else [] := by
  rw [Expr.tokens_ofTerms, Whole, List.forall_mem_append] at whole
  have proper := ((allForward fuel).unary .free _ _ _ readFirst).proper (level.proper ends).1
  have inside : passage.Inside middle := by
    rw [Passage.Inside, ← ended]
    exact fewer_of_terms proper readRest
  obtain ⟨first', middle', readFirst', same, moved⟩ := (allReach ends fuel).unary .free level
    readFirst whole.1 (Nat.le_of_lt inside) (.inl (.inl inside))
  have abreast := moved.resolve_right fun none => by simp [some] at none
  have fewer := fewer_of_unary readFirst level abreast
  obtain ⟨rest', readRest', texts⟩ := grammar.terms abreast readRest whole.2 ended (by omega)
  have some' : rest' ≠ [] := by
    rintro rfl
    cases texts
  refine ⟨_, expr_of_parts readFirst' (same.isEmpty ▸ some) readRest', ?_, ?_⟩
  · rw [Expr.ofTerms, List.isEmpty_eq_false_iff.2 some']
    rfl
  · rw [Expr.operators_ofTerms _ some', Expr.operators_ofTerms _ (List.cons_ne_nil _ _),
      Expr.leavesRoom_ofTerms _ (List.cons_ne_nil _ _), texts]

/-- An operand behind `try` goes on. -/
theorem trying {mark : Option Token} {middle : Cursor} {operand : Expr}
    (level : Level passage cursor cursor') (isTry : cursor.atKeyword "try" = true)
    (readMark : optionalMark cursor.bump.2 = some (mark, middle))
    (readOperand : Parser.expr fuel .free middle = some (operand, next))
    (nonempty : operand.isEmpty = false) (whole : Whole operand.tokens)
    (ended : next.left = passage.stop.left) (enough : 24 * cursor'.left + 3 ≤ fuel + 1) :
    ∃ mark' operand', Parser.unary (fuel + 1) .free cursor' =
        some (.trying cursor'.bump.1 mark' operand', last) ∧
      operand'.operators = operand.operators ++
        if operand.leavesRoom then more.map fun term => term.operator.text else [] := by
  have inside := level.inside_of_atKeyword ends isTry
  obtain ⟨-, abreast⟩ := level.bump inside
  obtain ⟨mark', middle', readMark', -, abreast'⟩ := reach_optionalMark abreast ends readMark
  obtain ⟨operand', readOperand', -, operators⟩ := grammar.expr (.later abreast') readOperand nonempty
    whole ended (fewer_of_mark level inside (Forward.bumpIf _ _ _ _ readMark) abreast' enough)
  refine ⟨mark', operand', ?_, operators⟩
  rw [Parser.unary, get_bind, ← level.atKeyword_eq ends, if_pos isTry, bump_bind,
    bind_apply readMark', bind_apply readOperand']
  rfl

/-- An operand behind `await` goes on. -/
theorem awaiting {operand : Expr} (level : Level passage cursor cursor')
    (isAwait : cursor.atKeyword "await" = true)
    (readOperand : Parser.expr fuel .free cursor.bump.2 = some (operand, next))
    (nonempty : operand.isEmpty = false) (whole : Whole operand.tokens)
    (ended : next.left = passage.stop.left) (enough : 24 * cursor'.left + 3 ≤ fuel + 1) :
    ∃ operand', Parser.unary (fuel + 1) .free cursor' =
        some (.awaiting cursor'.bump.1 operand', last) ∧
      operand'.operators = operand.operators ++
        if operand.leavesRoom then more.map fun term => term.operator.text else [] := by
  have inside := level.inside_of_atKeyword ends isAwait
  obtain ⟨-, abreast⟩ := level.bump inside
  obtain ⟨operand', readOperand', -, operators⟩ := grammar.expr (.later abreast) readOperand nonempty
    whole ended (fewer_of_mark level inside (.refl _) abreast enough)
  have notTry : cursor.atKeyword "try" = false := by
    rw [Cursor.atKeyword, Token.isKeyword, Bool.and_eq_true, beq_iff_eq, beq_iff_eq] at isAwait
    rw [Cursor.atKeyword, Token.isKeyword, isAwait.2]
    simp
  refine ⟨operand', ?_, operators⟩
  rw [Parser.unary, get_bind, ← level.atKeyword_eq ends, ← level.atKeyword_eq ends,
    if_neg (Bool.eq_false_iff.1 notTry), if_pos isAwait, bump_bind, bind_apply readOperand']
  rfl

/-- An operand behind a prefix operator goes on, with no operator at the top. -/
theorem prefixed {operand : Expr} (level : Level passage cursor cursor')
    (isPrefix : cursor.atOperator .before = true)
    (readOperand : Parser.unary fuel .free cursor.bump.2 = some (operand, next))
    (takes : operand.takesOperator = true) (whole : Whole operand.tokens)
    (ended : next.left = passage.stop.left) (enough : 24 * cursor'.left + 3 ≤ fuel + 1) :
    ∃ operand', Parser.unary (fuel + 1) .free cursor' =
      some (.prefixed cursor'.bump.1 operand', last) := by
  have operator := isPrefix
  rw [Cursor.atOperator, Bool.and_eq_true] at operator
  have inside := level.inside_of_isAt ends operator.1 (by decide)
  have notWord (keyword : String) : cursor.atKeyword keyword = false := by
    rw [Cursor.atKeyword, Token.isKeyword, beq_iff_eq.1 operator.1]
    rfl
  obtain ⟨-, abreast⟩ := level.bump inside
  obtain ⟨operand', readOperand', -, -⟩ := grammar.unary (.later abreast) readOperand takes whole ended
    (Nat.le_of_succ_le (fewer_of_mark level inside (.refl _) abreast enough))
  refine ⟨operand', ?_⟩
  rw [Parser.unary, get_bind, ← level.atKeyword_eq ends, ← level.atKeyword_eq ends,
    ← level.atOperator_eq ends (by decide), notWord, notWord, if_neg Bool.false_ne_true,
    if_neg Bool.false_ne_true, if_pos isPrefix, bump_bind, bind_apply readOperand']
  rfl

theorem unary_succ {answer : Expr} (level : Level passage cursor cursor')
    (given : Parser.unary (fuel + 1) .free cursor = some (answer, next))
    (takes : answer.takesOperator = true) (whole : Whole answer.tokens)
    (ended : next.left = passage.stop.left) (enough : 24 * cursor'.left + 3 ≤ fuel + 1) :
    ∃ answer', Parser.unary (fuel + 1) .free cursor' = some (answer', last) ∧
      answer'.isEmpty = false ∧ answer'.operators = answer.operators ++
        if answer.leavesRoom then more.map fun term => term.operator.text else [] := by
  have unmarked {expr : Expr} (isPostfix : expr.isPostfix = true) : expr.takesOperator = false :=
    (Expr.operators_of_isPostfix isPostfix).2.1
  rcases unary_eq_some given with ⟨isTry, mark, middle, operand, rfl, readMark, readOperand⟩ |
    ⟨isAwait, operand, rfl, readOperand⟩ | ⟨isPrefix, operand, rfl, readOperand⟩ |
    ⟨-, operand, rfl, isPostfix⟩ | isPostfix
  · obtain ⟨mark', operand', read, operators⟩ := grammar.trying ends level isTry readMark readOperand
      (by simpa [Expr.takesOperator] using takes)
      (fun token member => whole token (by simp [Expr.tokens, member])) ended enough
    exact ⟨_, read, rfl, operators⟩
  · obtain ⟨operand', read, operators⟩ := grammar.awaiting ends level isAwait readOperand
      (by simpa [Expr.takesOperator] using takes)
      (fun token member => whole token (by simp [Expr.tokens, member])) ended enough
    exact ⟨_, read, rfl, operators⟩
  · obtain ⟨operand', read⟩ := grammar.prefixed ends level isPrefix readOperand takes
      (fun token member => whole token (by simp [Expr.tokens, member])) ended enough
    have room : (Expr.prefixed cursor.bump.1 operand).leavesRoom = false := by
      simp [Expr.leavesRoom, takes]
    exact ⟨_, read, rfl, by rw [room]; rfl⟩
  · rw [Expr.takesOperator, unmarked isPostfix] at takes
    cases takes
  · rw [unmarked isPostfix] at takes
    cases takes

include continues

/-- An operand alone goes on, with the operators behind it or inside of it. -/
theorem expr_alone {first : Expr} (level : Level passage cursor cursor')
    (readFirst : Parser.unary fuel .free cursor = some (first, next)) (some : first.isEmpty = false)
    (whole : Whole first.tokens) (ended : next.left = passage.stop.left)
    (enough : 24 * cursor'.left + 4 ≤ fuel + 1) :
    ∃ answer', Parser.expr (fuel + 1) .free cursor' = .some (answer', last) ∧
      answer'.isEmpty = false ∧ answer'.operators = first.operators ++
        if first.leavesRoom then more.map fun term => term.operator.text else [] := by
  cases takes : first.takesOperator with
  | false =>
    obtain ⟨first', middle', readFirst', same, moved⟩ := (allReach ends fuel).unary .free level
      readFirst whole (Nat.le_of_eq ended.symm) (.inr takes)
    have abreast := moved.resolve_right fun none => by simp [some] at none
    have fewer := fewer_of_unary readFirst level abreast
    have readMore := continues.terms 0 abreast (Nat.not_lt_of_le (Nat.le_of_eq ended))
      (show 24 * middle'.left + 1 ≤ fuel by omega)
    obtain ⟨none, room⟩ := operators_of_unary readFirst takes
    refine ⟨_, expr_of_parts readFirst' (same.isEmpty ▸ some) readMore, ?_, ?_⟩
    · rw [Expr.ofTerms, List.isEmpty_eq_false_iff.2 continues.some]
      rfl
    · rw [Expr.operators_ofTerms _ continues.some, none, room]
      rfl
  | true =>
    obtain ⟨first', readFirst', some', operators⟩ := grammar.unary level readFirst takes whole ended
      (by omega)
    obtain ⟨less, rfl⟩ : ∃ less, fuel = less + 1 := Nat.exists_eq_succ_of_ne_zero (by omega)
    exact ⟨first', expr_of_parts readFirst' some' (terms_at_end continues.ended 0), some', operators⟩

theorem expr_succ {answer : Expr} (level : Level passage cursor cursor')
    (given : Parser.expr (fuel + 1) .free cursor = some (answer, next))
    (nonempty : answer.isEmpty = false) (whole : Whole answer.tokens)
    (ended : next.left = passage.stop.left) (enough : 24 * cursor'.left + 4 ≤ fuel + 1) :
    ∃ answer', Parser.expr (fuel + 1) .free cursor' = some (answer', last) ∧
      answer'.isEmpty = false ∧ answer'.operators = answer.operators ++
        if answer.leavesRoom then more.map fun term => term.operator.text else [] := by
  obtain ⟨first, rest, middle, readFirst, some, readRest, rfl⟩ := expr_eq_some given nonempty
  cases rest with
  | nil =>
    obtain rfl := eq_of_terms_nil readRest
    exact grammar.expr_alone ends continues level readFirst some whole ended enough
  | cons term later =>
    exact grammar.expr_followed ends level readFirst some readRest whole ended enough

theorem terms_succ {answer : List OperatorTerm} {ternaries : Nat}
    (abreast : Abreast passage cursor cursor')
    (given : Parser.terms (fuel + 1) .free ternaries cursor = some (answer, next))
    (whole : Whole (tokensOfTerms answer)) (ended : next.left = passage.stop.left)
    (enough : 24 * cursor'.left + 1 ≤ fuel + 1) :
    ∃ answer', Parser.terms (fuel + 1) .free ternaries cursor' = some (answer', last) ∧
      (answer'.map fun term => term.operator.text) = (answer.map fun term => term.operator.text) ++
        if answer.getLast?.all fun term => !term.operand.takesOperator then
          more.map fun term => term.operator.text else [] := by
  cases answer with
  | nil =>
    obtain rfl := eq_of_terms_nil given
    exact ⟨more, continues.terms ternaries abreast (Nat.not_lt_of_le (Nat.le_of_eq ended)) enough, rfl⟩
  | cons term later =>
    obtain ⟨second, third, readOperator, readOperand, readLater⟩ := terms_cons_iff.1 given
    obtain ⟨_, second', readOperator', @⟨_, operator', like⟩, abreast'⟩ :=
      reach_binaryOperator abreast ends readOperator fun none => nomatch none
    rw [tokensOfTerms, List.cons_append, Whole, List.forall_mem_cons, List.forall_mem_append]
      at whole
    obtain ⟨-, wholeOperand, wholeLater⟩ := whole
    have proper := (abreast.proper ends).1
    have fewer := fewer_of_binaryOperator proper readOperator
    have forward := (forward_operand readOperand).suffix.length_le
    have onward := ((allForward fuel).terms .free _ _ _ _ readLater).suffix.length_le
    have sides := abreast.left_eq
    have sides' := abreast'.left_eq
    -- The last operand takes the operator, or nothing does before the end of the way.
    by_cases takes : later = [] ∧ term.operand.takesOperator = true
    · obtain ⟨rfl, takes⟩ := takes
      obtain rfl := eq_of_terms_nil readLater
      obtain ⟨operand', readOperand'⟩ := grammar.operand like abreast' readOperand takes wholeOperand
        ended (by omega)
      refine ⟨[⟨operator', operand'⟩], terms_cons_iff.2 ⟨second', last, readOperator', readOperand',
        ?_⟩, ?_⟩
      · obtain ⟨less, rfl⟩ : ∃ less, fuel = less + 1 := Nat.exists_eq_succ_of_ne_zero (by omega)
        exact terms_at_end continues.ended _
      · simp [takes, like.text]
    · have settles : passage.Settles third ∨ term.operand.takesOperator = false := by
        cases later with
        | nil => exact .inr (by simpa using takes)
        | cons _ _ =>
          refine .inl (.inl ?_)
          rw [Passage.Inside, ← ended]
          exact fewer_of_terms ((forward_operand readOperand).proper
            ((forward_binaryOperator ternaries _ _ _ readOperator).proper proper)) readLater
      obtain ⟨operand', third', readOperand', abreast''⟩ := (allReach ends fuel).reach_operand ends
        .free like abreast' readOperand wholeOperand (ended ▸ onward) settles
      have sides'' := abreast''.left_eq
      obtain ⟨later', readLater', texts⟩ := grammar.terms abreast'' readLater wholeLater ended
        (by simp only [Cursor.left] at *; omega)
      refine ⟨⟨operator', operand'⟩ :: later', terms_cons_iff.2 ⟨second', third', readOperator',
        readOperand', ternariesAfter_eq like ternaries ▸ readLater'⟩, ?_⟩
      rw [List.map_cons, List.map_cons, texts, like.text, List.cons_append]
      cases later with
      | nil =>
        have room : term.operand.takesOperator = false := by simpa using takes
        simp [room]
      | cons _ _ => rw [List.getLast?_cons_cons]

theorem succ : AllContinue passage more last (fuel + 1) where
  expr := expr_succ ends continues grammar
  terms := terms_succ ends continues grammar
  unary := unary_succ ends grammar

end AllContinue

/-- With every amount of fuel what is read up to the end of the way goes on behind it. -/
theorem allContinue (ends : passage.Ends) (continues : passage.Continues more last) (fuel : Nat) :
    AllContinue passage more last fuel := by
  induction fuel with
  | zero => exact .zero
  | succ fuel ih => exact .succ ends continues ih

end Parser

end SuiteMigration
