import Mathlib.Tactic.Common
import SuiteMigration.Expectation.Throwing
import SuiteMigration.Proofs.Tree.Lenses

/-!
# Assertions that are handed back

An assertion about errors is taken apart before it is known whether it can become an expectation:
its handler goes first, then the trivia before it, and only then the arguments are looked at. The
test on the arguments is made twice, and the first test accepts more than the second. What the
second refuses is put together again, and the result is the assertion as it was.

So splitting a statement and replacing an expression either give something new or leave everything
alone, and the pass can be described by the new things only.

## Main results

* `ThrowExpectation.replace_call`, `Statement.split_call` - what becomes of a call
* `handed_back_unchanged` - what is handed back is what was given
* `Expr.throwing?_eq`, `Statement.flattened?_eq` - the new expression and the new statements
* `throwingTransformer_expr`, `throwingTransformer_statement` - the pass in terms of these
-/

namespace SuiteMigration

/-! ### Replacing a call -/

/-- The first argument without a label can be the body of an expectation. -/
def CallArguments.hasUsableBody (list : CallArguments) : Bool :=
  (positional list.arguments).head?.any fun body => ThrowExpectation.isUsable body.value

namespace ThrowExpectation

theorem call?_eq_none_iff {expectation : ThrowExpectation}
    {leading trailing : Trivia} {list : CallArguments} :
    expectation.call? leading trailing list.arguments = none ↔ list.hasUsableBody = false := by
  unfold call? CallArguments.hasUsableBody
  cases positional list.arguments with
  | nil => simp
  | cons body messages => simp

/-- The trivia after an expectation stand at the end of its closure. -/
theorem map_withoutTail_call? (expectation : ThrowExpectation) (leading trailing : Trivia)
    (arguments : List Argument) :
    (expectation.call? leading trailing arguments).map Expr.withoutTail =
      expectation.call? leading "" arguments := by
  unfold call?
  cases positional arguments with
  | nil => rfl
  | cons body messages =>
    by_cases usable : isUsable body.value = true
    · simp only [if_pos usable, Option.map_some]
      rfl
    · simp only [if_neg usable, Option.map_none]

/-- The test before the call is taken apart is the one that decides. -/
theorem replace_call (expectation : ThrowExpectation) (callee : Expr) (list : CallArguments)
    (closure : Option Closure) :
    expectation.replace (.call callee list closure) =
      match expectation.call? (Node.leading callee)
        (Node.trailing (Expr.call callee list closure)) list.arguments with
      | some new => .ok new
      | none => .error (.call callee list closure) := by
  have first : list.arguments.find? (fun argument => argument.label.isNone) =
      (positional list.arguments).head? := List.head?_filter.symm
  unfold replace
  simp only [first]
  cases found : expectation.call? (Node.leading callee)
      (Node.trailing (Expr.call callee list closure)) list.arguments with
  | none =>
    have unusable := call?_eq_none_iff.1 found
    unfold CallArguments.hasUsableBody at unusable
    rw [if_neg (by rw [unusable]; exact Bool.false_ne_true)]
  | some new =>
    have usable : list.hasUsableBody = true := by
      rw [← Bool.not_eq_false, ← call?_eq_none_iff, found]
      exact Option.some_ne_none new
    exact if_pos usable

/-- What cannot be replaced is handed back. -/
theorem eq_of_replace_eq_error {expectation : ThrowExpectation} {call back : Expr}
    (refused : expectation.replace call = .error back) : back = call := by
  unfold replace at refused
  split at refused
  · rename_i callee list closure
    have spec := expectation.replace_call callee list closure
    rw [replace, refused] at spec
    split at spec
    · cases spec
    · exact Except.error.inj spec
  · exact (Except.error.inj refused).symm

end ThrowExpectation

/-! ### Splitting a statement -/

theorem exists_token_of_throwExpectation? {callee : Expr} {list : CallArguments}
    {expectation : ThrowExpectation}
    (found : throwExpectation? callee list = some expectation) :
    ∃ token, callee = .identifier token := by
  unfold throwExpectation? at found
  split at found
  · cases callee with
    | identifier token => exact ⟨token, rfl⟩
    | _ => cases found
  · cases found

/-- The trivia before the call of a name are those before the name. -/
theorem setLeading_call (token : Token) (arguments : CallArguments)
    (closure : Option Closure) (trivia : Trivia) :
    Node.setLeading (Expr.call (.identifier token) arguments closure) trivia =
      .call (.identifier (token.withLeading trivia)) arguments closure :=
  Expr.assembles_call.setLeading_first (List.cons_ne_nil _ _) (arguments, closure) trivia

/-- A call with both parentheses ends with the closing one. -/
theorem trailing_call (callee : Expr) {list : CallArguments} (closed : list.isClosed = true) :
    Node.trailing (Expr.call callee list none) = Node.trailing list.rightParen := by
  obtain ⟨⟨opener, arguments, closer⟩, rfl, -⟩ := CallArguments.exists_eq_ofList closed
  have tokens_eq : Node.tokens (Expr.call callee (.ofList ⟨opener, arguments, closer⟩) none) =
      (callee.tokens ++ opener :: tokensOfArguments arguments) ++ [closer] := by
    simp [Node.tokens, Expr.tokens, ArgumentList.tokens, tokensOfClosure?]
  rw [Node.trailing, tokens_eq, List.getLast?_concat]
  rfl

/-- Only calls with both parentheses become expectations. -/
theorem isClosed_of_throwExpectation? {callee : Expr} {list : CallArguments}
    {expectation : ThrowExpectation}
    (found : throwExpectation? callee list = some expectation) : list.isClosed = true := by
  unfold throwExpectation? at found
  split at found
  · assumption
  · cases found

/-- A call that becomes an expectation passes the test that is made before it is taken apart. -/
theorem any_unlabelled_of_hasUsableBody {list : CallArguments} (usable : list.hasUsableBody = true) :
    (list.arguments.any fun argument =>
      argument.label.isNone && !argument.value.isEmpty) = true := by
  unfold CallArguments.hasUsableBody at usable
  cases positional_eq : positional list.arguments with
  | nil =>
    rw [positional_eq] at usable
    cases usable
  | cons body messages =>
    rw [positional_eq] at usable
    have first : body ∈ positional list.arguments := positional_eq ▸ List.mem_cons_self
    obtain ⟨member, unlabelled⟩ := List.mem_filter.1 first
    obtain ⟨present, -⟩ := Bool.and_eq_true_iff.1 usable
    exact List.any_eq_true.2 ⟨body, member, Bool.and_eq_true_iff.2 ⟨unlabelled, present⟩⟩

/-- The call with a handler is split if its call without one becomes an expectation, and otherwise
it is handed back. -/
theorem Statement.split_call {statement : Statement} {callee : Expr} {list : CallArguments}
    {handler : Closure}
    (item_eq : statement.item = .expr (.call callee list (some handler)))
    (firstInFile : Bool) :
    statement.split firstInFile =
      match (throwExpectation? callee list).bind (·.call? "" "" list.arguments) with
      | some call =>
        .ok (flatten call handler (Node.leading callee) firstInFile statement.semicolon)
      | none => .error statement := by
  obtain ⟨item, semicolon⟩ := statement
  subst item_eq
  unfold Statement.split
  cases found : throwExpectation? callee list with
  | none => simp only [found, Option.bind_none]
  | some expectation =>
    obtain ⟨token, rfl⟩ := exists_token_of_throwExpectation? found
    have closed := isClosed_of_throwExpectation? found
    simp only [found, Option.bind_some, setLeading_call, ThrowExpectation.replace_call,
      trailing_call _ closed, ← expectation.map_withoutTail_call? "" (Node.trailing list.rightParen)]
    cases call_eq : expectation.call? (Node.leading (Expr.identifier (token.withLeading "")))
        (Node.trailing list.rightParen) list.arguments with
    | none =>
      rw [show expectation.call? "" (Node.trailing list.rightParen) list.arguments = none
        from call_eq]
      split
      · -- The handler and the trivia that were taken off are put back.
        simp only [Expr.withHandler, setLeading_call]
        rfl
      · rfl
    | some new =>
      have usable : list.hasUsableBody = true := by
        rw [← Bool.not_eq_false, ← ThrowExpectation.call?_eq_none_iff, call_eq]
        exact Option.some_ne_none new
      rw [show expectation.call? "" (Node.trailing list.rightParen) list.arguments = some new
        from call_eq]
      rw [if_pos (any_unlabelled_of_hasUsableBody usable)]
      rfl

/-- A statement that cannot be split is handed back. -/
theorem Statement.eq_of_split_eq_error {statement back : Statement} {firstInFile : Bool}
    (refused : statement.split firstInFile = .error back) : back = statement := by
  have spec := refused
  unfold Statement.split at spec
  split at spec
  · rename_i callee list handler item_eq
    rw [Statement.split_call item_eq] at refused
    split at refused
    · cases refused
    · exact (Except.error.inj refused).symm
  · exact (Except.error.inj spec).symm

/-- What is refused is left alone: a statement that is not split and a call that is not replaced are
handed back as they were given, with their trivia, their closure and their semicolon. -/
theorem handed_back_unchanged :
    (∀ (statement : Statement) (firstInFile : Bool) (back : Statement),
      statement.split firstInFile = .error back → back = statement) ∧
    ∀ (expectation : ThrowExpectation) (call back : Expr),
      expectation.replace call = .error back → back = call :=
  ⟨fun _ _ _ => Statement.eq_of_split_eq_error,
    fun _ _ _ => ThrowExpectation.eq_of_replace_eq_error⟩

/-- The call `XCTAssertThrowsError(f /* why */)` of a handler that does nothing. A comment follows
the body, so the call comes back after its handler and its first trivia were taken off. -/
theorem handed_back_unchanged_commented :
    let list : CallArguments :=
      { leftParen := some (.ofPunctuation '(')
        arguments := [.ofValue (.identifier ((Token.ofName "f").withTrailing " /* why */"))]
        rightParen := some (.ofPunctuation ')') }
    let callee : Expr := .identifier ((Token.ofName "XCTAssertThrowsError").withLeading "\n  ")
    let handler : Closure :=
      { leftBrace := .ofPunctuation '\x7b', signature := none, statements := [],
        rightBrace := .ofPunctuation '\x7d' }
    let statement : Statement :=
      { item := .expr (.call callee list (some handler)), semicolon := none }
    (∃ back, statement.split false = .error back ∧ back = statement) ∧
      ∃ back, ThrowExpectation.anyError.replace (.call callee list none) = .error back ∧
        back = .call callee list none := by
  intro list callee handler statement
  constructor
  · exact ⟨_, rfl, handed_back_unchanged.1 statement false _ rfl⟩
  · exact ⟨_, rfl, handed_back_unchanged.2 .anyError (.call callee list none) _ rfl⟩

/-! ### The pass in terms of what is new -/

/-- An expression that is no throwing assertion is handed back. -/
theorem Expr.eq_of_throwing_eq_error {expr back : Expr} (refused : expr.throwing = .error back) :
    back = expr := by
  unfold Expr.throwing at refused
  split at refused
  · split at refused
    · exact ThrowExpectation.eq_of_replace_eq_error refused
    · exact (Except.error.inj refused).symm
  · exact (Except.error.inj refused).symm

theorem Expr.throwing?_eq (expr : Expr) :
    expr.throwing? =
      match expr with
      | .call callee list none =>
        (throwExpectation? callee list).bind fun expectation =>
          expectation.call? (Node.leading callee) (Node.trailing list.rightParen) list.arguments
      | _ => none := by
  cases expr with
  | call callee list closure =>
    cases closure with
    | none =>
      simp only [Expr.throwing?, Expr.throwing]
      cases found : throwExpectation? callee list with
      | none => rfl
      | some expectation =>
        have closed := isClosed_of_throwExpectation? found
        simp only [ThrowExpectation.replace_call, trailing_call callee closed, Option.bind_some]
        cases expectation.call? (Node.leading callee) (Node.trailing list.rightParen)
          list.arguments <;> rfl
    | some _ => rfl
  | _ => rfl

theorem Statement.flattened?_eq (statement : Statement) (firstInFile : Bool) :
    statement.flattened? firstInFile =
      match statement.item with
      | .expr (.call callee list (some handler)) =>
        (throwExpectation? callee list).bind fun expectation =>
          (expectation.call? "" "" list.arguments).map fun call =>
            flatten call handler (Node.leading callee) firstInFile statement.semicolon
      | _ => none := by
  obtain ⟨item, semicolon⟩ := statement
  cases item with
  | expr inner =>
    cases inner with
    | call callee list closure =>
      cases closure with
      | some handler =>
        rw [Statement.flattened?, Statement.split_call rfl]
        show _ = (throwExpectation? callee list).bind _
        cases throwExpectation? callee list with
        | none => rfl
        | some expectation =>
          simp only [Option.bind_some]
          cases expectation.call? "" "" list.arguments <;> rfl
      | none => rfl
    | _ => rfl
  | _ => rfl

theorem throwingTransformer_expr (expr : Expr) (parts : StateM ThrowingState Expr) :
    throwingTransformer.expr expr parts = do
      let new ← parts
      match new.throwing? with
      | some expectation =>
        modify fun state => { state with changes := state.changes + 1 }
        return expectation
      | none => return new := by
  refine congrArg (parts >>= ·) (funext fun new => ?_)
  unfold Expr.throwing?
  cases made : new.throwing with
  | ok expectation => rfl
  | error back =>
    obtain rfl := Expr.eq_of_throwing_eq_error made
    rfl

theorem throwingTransformer_statement (statement : Statement)
    (parts : StateM ThrowingState Statement) :
    throwingTransformer.statement statement parts = do
      let firstInFile := (← get).atFileStart
      modify fun state => { state with atFileStart := false }
      let new ← parts
      match new.flattened? firstInFile with
      | some statements =>
        modify fun state => { state with changes := state.changes + 1 }
        return statements
      | none => return [new] := by
  refine congrArg (get >>= ·) (funext fun state => ?_)
  refine congrArg (modify _ >>= ·) (funext fun _ => congrArg (parts >>= ·) (funext fun new => ?_))
  unfold Statement.flattened?
  cases made : new.split state.atFileStart with
  | ok statements => rfl
  | error back =>
    obtain rfl := Statement.eq_of_split_eq_error made
    rfl

end SuiteMigration
