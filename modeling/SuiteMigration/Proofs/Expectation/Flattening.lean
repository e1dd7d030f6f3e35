import Mathlib.Data.List.Basic
import Mathlib.Tactic.Common
import SuiteMigration.Proofs.Expectation.Conservation
import SuiteMigration.Proofs.Expectation.Placing
import SuiteMigration.Proofs.Expectation.Refusals

/-!
# What becomes of a handler

The call of an assertion with a handler is split into the binding of an expectation and the
statements of the handler. The binding has the trivia before the call, the first argument without a
label in its closure, and the others as messages. The statements of the handler follow one by one:
each is the redirected statement but for the trivia before it, perhaps a semicolon, and, if it is
the last, the trivia behind it, which end like the call did.

## Main definitions

* `HandledAssertion` - the parts of a call with a handler
* `HandledAssertion.Emits` - what may differ between a piece and the statement it becomes
* `HandledAssertion.SplitsInto` - what the statements of a split are

## Main results

* `getElem?_flatten` - the statement at an index of a split
* `splits_handler` - nothing of a handler is lost or reordered
-/

namespace SuiteMigration

/-! ### What is put behind a statement -/

/-- The statement with a semicolon behind it, if it has none and one is given. -/
def Statement.ending (statement : Statement) (semicolon : Option Token) : Statement :=
  { statement with semicolon := statement.semicolon.or semicolon }

theorem Statement.ending_none (statement : Statement) : statement.ending none = statement := by
  obtain ⟨item, _ | semicolon⟩ := statement <;> rfl

/-- A statement ends in a semicolon of its own, unless it has one. -/
theorem Statement.withSemicolon_eq (statement : Statement) :
    statement.withSemicolon = statement.ending (some (.ofPunctuation ';')) := by
  obtain ⟨item, _ | semicolon⟩ := statement <;> rfl

/-- Trivia that is put at the end replaces the comments of the closing brace. -/
theorem setTrailing_withClosingComments (statement : Statement) (placement : Placement)
    (closing trivia : Trivia) :
    Node.setTrailing (statement.withClosingComments placement closing) trivia =
      Node.setTrailing statement trivia := by
  unfold Statement.withClosingComments
  split
  · exact Node.setTrailing_setTrailing ..
  · rfl

/-- What followed the call comes last behind the last statement. -/
theorem exists_withTail_eq (statement : Statement) (placement : Placement)
    (closing tail : Trivia) (semicolon : Option Token) :
    ∃ own : Trivia, (statement.withClosingComments placement closing).withTail tail semicolon =
      (Node.setTrailing statement (own ++ tail)).ending semicolon :=
  ⟨_, congrArg (Statement.ending · semicolon) (setTrailing_withClosingComments ..)⟩

/-- Only the last value is changed. -/
theorem getElem?_modifyLast (change : α → α) (values : List α) (k : Nat) :
    (modifyLast change values)[k]? =
      values[k]?.map fun value => if k + 1 = values.length then change value else value := by
  match values, k with
  | [], k => rfl
  | [last], 0 => rfl
  | [last], k + 1 => rfl
  | first :: second :: later, 0 => rfl
  | first :: second :: later, k + 1 =>
    have ih := getElem?_modifyLast change (second :: later) k
    simpa [modifyLast] using ih

/-- Joining leaves as many statements as there were. -/
theorem length_joinStatements (statements : List Statement) :
    (joinStatements statements).length = statements.length := by
  match statements with
  | [] => rfl
  | [last] => rfl
  | first :: second :: later => exact congrArg (· + 1) (length_joinStatements (second :: later))

/-- All statements but the last get a semicolon. -/
theorem getElem?_joinStatements (statements : List Statement) (k : Nat) :
    (joinStatements statements)[k]? =
      statements[k]?.map fun statement =>
        if k + 1 = statements.length then statement else statement.withSemicolon := by
  match statements, k with
  | [], k => rfl
  | [last], 0 => rfl
  | [last], k + 1 => rfl
  | first :: second :: later, 0 => rfl
  | first :: second :: later, k + 1 =>
    have ih := getElem?_joinStatements (second :: later) k
    simpa [joinStatements] using ih

/-! ### Calls with a handler -/

/-- A statement that calls an assertion about errors with a handler. -/
structure HandledAssertion (statement : Statement) where
  callee : Expr
  list : CallArguments
  handler : Closure
  expectation : ThrowExpectation
  /-- The first argument without a label. -/
  body : Argument
  /-- The other arguments without a label. -/
  messages : List Argument
  item_eq : statement.item = .expr (.call callee list (some handler))
  expects : throwExpectation? callee list = some expectation
  positional_eq : positional list.arguments = body :: messages

namespace HandledAssertion

variable {statement : Statement} (assertion : HandledAssertion statement)

/-- The messages of the expectation: a space before the first one, and no comma after the last. -/
def respaced : List Argument :=
  modifyFirst ThrowExpectation.spacedMessage (stripComma assertion.messages)

/-- The binding `let error = #expect(throws: T.self, messages) { body }`. -/
def binding : Statement :=
  errorBinding (Node.leading statement) <|
    .call (.identifier (.ofName "#expect"))
      { leftParen := some (.ofPunctuation '(')
        arguments :=
          assertion.expectation.typeArgument assertion.respaced.isEmpty :: assertion.respaced
        rightParen := some ((Token.ofPunctuation ')').withTrailing .space) }
      (some (ThrowExpectation.bodyClosure assertion.body.value ""))

/-- The second statement is the first one, perhaps with a semicolon added. If it is the last of all,
the trivia behind it are others, and they end with those behind the handler. -/
def Emits (isLast : Bool) (old new : Statement) : Prop :=
  ∃ own semicolon,
    (∀ token, semicolon = some token →
      token = .ofPunctuation ';' ∨ statement.semicolon = some token) ∧
    new = (if isLast then
        Node.setTrailing old (own ++ assertion.handler.rightBrace.trailing)
      else old).ending semicolon

/-- The statements are what is left of the call and its handler. -/
structure SplitsInto (firstInFile : Bool) (statements : List Statement) : Prop where
  length : statements.length = assertion.handler.statements.length + 1
  /-- The binding comes first, with the trivia before the call. -/
  binding : ∃ new, statements[0]? = some new ∧
    assertion.Emits (assertion.handler.statements.length == 0) assertion.binding new
  /-- The messages keep their order and their values. -/
  messages : assertion.respaced.map (fun message => (message.label, message.value.texts)) =
    assertion.messages.map fun message => (none, message.value.texts)
  /-- Each statement of the handler follows, redirected and with other trivia before it. -/
  kept : ∀ k old, assertion.handler.statements[k]? = some old → ∃ leading new,
    statements[k + 1]? = some new ∧
    assertion.Emits (assertion.handler.statements.length == k + 1)
      (Node.setLeading (old.redirected assertion.handler.errorParameter?) leading) new
  /-- On a line with earlier code, all but the last end with a semicolon. -/
  joined : firstInFile = false → (Node.leading statement).containsNewline = false →
    ∀ k new, k < assertion.handler.statements.length → statements[k]? = some new →
      new.semicolon.isSome

/-- Spaces in front of messages are no part of their texts. -/
theorem texts_respaced :
    assertion.respaced.map (fun message => (message.label, message.value.texts)) =
      assertion.messages.map fun message => (none, message.value.texts) := by
  have withoutComma (message : Argument) :
      (message.withoutComma.label, message.withoutComma.value.texts) =
        (message.label, message.value.texts) := by
    rw [Argument.texts_withoutComma]
    unfold Argument.withoutComma
    split <;> rfl
  have spaced (messages : List Argument) :
      (modifyFirst ThrowExpectation.spacedMessage messages).map
          (fun message => (message.label, message.value.texts)) =
        messages.map fun message => (message.label, message.value.texts) := by
    cases messages with
    | nil => rfl
    | cons first later =>
      exact congrArg (· :: _) (Prod.ext rfl (Expr.texts_setLeading first.value .space))
  rw [respaced, spaced, stripComma, map_modifyLast withoutComma]
  -- The messages have no label because they are among the positional arguments.
  apply List.map_congr_left
  intro message member
  have unlabeled := label_positional message
    (assertion.positional_eq ▸ List.mem_cons_of_mem assertion.body member)
  rw [unlabeled]

end HandledAssertion

/-- What is split is an assertion with a handler. -/
theorem exists_handledAssertion {statement : Statement} {firstInFile : Bool}
    {statements : List Statement} (split : statement.split firstInFile = .ok statements) :
    ∃ (assertion : HandledAssertion statement) (call : Expr),
      assertion.binding = errorBinding (Node.leading statement) call ∧
      statements = flatten call assertion.handler (Node.leading statement) firstInFile
        statement.semicolon := by
  have found : statement.flattened? firstInFile = some statements := by
    rw [Statement.flattened?, split]
    rfl
  rw [Statement.flattened?_eq] at found
  obtain ⟨item, semicolon⟩ := statement
  split at found
  · rename_i callee list handler item_eq
    subst item_eq
    obtain ⟨expectation, expects, found⟩ := Option.bind_eq_some_iff.1 found
    obtain ⟨call, call_eq, rfl⟩ := Option.map_eq_some_iff.1 found
    -- The callee is a name, so the trivia before it are those before the statement.
    obtain ⟨token, rfl⟩ := exists_token_of_throwExpectation? expects
    unfold ThrowExpectation.call? at call_eq
    split at call_eq
    · cases call_eq
    · rename_i body messages positional_eq
      split at call_eq
      · obtain rfl := Option.some.inj call_eq
        exact ⟨⟨_, list, handler, expectation, body, messages, rfl, expects, positional_eq⟩, _, rfl,
          rfl⟩
      · cases call_eq
  · cases found

/-! ### The statements of a split -/

/-- Where the statements of a handler go, given the trivia before the call. -/
def placementAfter (leading : Trivia) (firstInFile : Bool) : Placement :=
  { indent := leading.lineIndentation
    sharesLine := !firstInFile && !leading.containsNewline }

/-- A piece of a split statement with what is put behind it. -/
def Placement.finish (placement : Placement) (handler : Closure) (semicolon : Option Token)
    (isLast : Bool) (piece : Statement) : Statement :=
  if isLast then
    (piece.withClosingComments placement handler.rightBrace.leading).withTail
      handler.rightBrace.trailing semicolon
  else if placement.sharesLine then piece.withSemicolon
  else piece

/-- The declaration of the error and the statements of the handler. -/
theorem length_flatten (call : Expr) (handler : Closure) (leading : Trivia) (firstInFile : Bool)
    (semicolon : Option Token) :
    (flatten call handler leading firstInFile semicolon).length =
      handler.statements.length + 1 := by
  simp only [flatten, length_modifyLast]
  split <;> simp [length_joinStatements]

/-- Each statement of the handler stands in its place. -/
theorem getElem?_flatten (call : Expr) (handler : Closure) (leading : Trivia) (firstInFile : Bool)
    (semicolon : Option Token) (k : Nat) :
    let placement := placementAfter leading firstInFile
    (flatten call handler leading firstInFile semicolon)[k]? =
      (errorBinding leading call ::
          handler.statements.map (placement.place handler.errorParameter?))[k]?.map
        (placement.finish handler semicolon (handler.statements.length == k)) := by
  intro placement
  have last_iff : k + 1 = handler.statements.length + 1 ↔
      (handler.statements.length == k) = true := by
    rw [beq_iff_eq]
    omega
  show (modifyLast _ (if placement.sharesLine then _ else _))[k]? = _
  rw [getElem?_modifyLast]
  by_cases shares : placement.sharesLine = true
  · -- The last statement gets no semicolon of its own, only what followed the call.
    rw [if_pos shares, getElem?_joinStatements, length_joinStatements, Option.map_map]
    congr 1
    funext piece
    simp only [Function.comp_apply, List.length_cons, List.length_map, last_iff, Placement.finish,
      shares, if_true]
    split <;> rfl
  · rw [if_neg shares]
    congr 1
    funext piece
    simp only [List.length_cons, List.length_map, last_iff, Placement.finish, if_neg shares]
    rfl

theorem HandledAssertion.emits_finish {statement : Statement}
    (assertion : HandledAssertion statement) (placement : Placement) (isLast : Bool)
    (old : Statement) :
    assertion.Emits isLast old
      (placement.finish assertion.handler statement.semicolon isLast old) := by
  cases isLast with
  | true =>
    obtain ⟨own, tail_eq⟩ := exists_withTail_eq old placement
      assertion.handler.rightBrace.leading assertion.handler.rightBrace.trailing
      statement.semicolon
    exact ⟨own, statement.semicolon, fun _ => .inr, tail_eq⟩
  | false =>
    by_cases shares : placement.sharesLine = true
    · refine ⟨"", some (.ofPunctuation ';'), fun token same => ?_, ?_⟩
      · exact .inl (Option.some.inj same).symm
      · exact (if_pos shares).trans old.withSemicolon_eq
    · refine ⟨"", none, fun _ => nofun, ?_⟩
      exact (if_neg shares).trans old.ending_none.symm

/-- A statement that is split becomes the binding of an expectation and the statements of the
handler, in order and redirected. Nothing of them changes but the trivia at their ends and the
semicolons between them. -/
theorem splits_handler {statement : Statement} {firstInFile : Bool} {statements : List Statement}
    (split : statement.split firstInFile = .ok statements) :
    ∃ assertion : HandledAssertion statement, assertion.SplitsInto firstInFile statements := by
  obtain ⟨assertion, call, binding_eq, rfl⟩ := exists_handledAssertion split
  have placed := getElem?_flatten call assertion.handler (Node.leading statement) firstInFile
    statement.semicolon
  have emits := assertion.emits_finish (placementAfter (Node.leading statement) firstInFile)
  refine ⟨assertion, length_flatten .., ?_, assertion.texts_respaced, ?_, ?_⟩
  · refine ⟨_, placed 0, ?_⟩
    rw [binding_eq]
    exact emits ..
  · intro k old found
    refine ⟨(placementAfter (Node.leading statement) firstInFile).leading (Node.leading old), _,
      (placed (k + 1)).trans ?_, emits ..⟩
    rw [List.getElem?_cons_succ, List.getElem?_map, found, Option.map_some, Option.map_some,
      Placement.place, redirected_setLeading]
  · intro unfirst unbroken k new front found
    rw [placed k] at found
    obtain ⟨piece, -, rfl⟩ := Option.map_eq_some_iff.1 found
    have notLast : (assertion.handler.statements.length == k) = false :=
      beq_false_of_ne (Nat.ne_of_gt front)
    simp [Placement.finish, notLast, placementAfter, unfirst, unbroken, Statement.withSemicolon]

/-- The call `XCTAssertThrowsError(f, m) { e in log(e); e.code }` on a line with earlier code. -/
theorem splits_handler_shared :
    let name (text : String) : Expr := .identifier (.ofName text)
    let list (arguments : List Argument) : CallArguments :=
      { leftParen := some (.ofPunctuation '('), arguments, rightParen := some (.ofPunctuation ')') }
    let handler : Closure :=
      { leftBrace := .ofPunctuation '\x7b'
        signature := some { tokens := [.ofName "e"], inKeyword := .ofName "in" }
        statements :=
          [{ item := .expr (.call (name "log") (list [.ofValue (name "e")]) none)
             semicolon := some (.ofPunctuation ';') },
           .ofItem (.expr (.member (some (name "e")) (.ofPunctuation '.') (.ofName "code")))]
        rightBrace := (Token.ofPunctuation '\x7d').withTrailing " // done" }
    let arguments : List Argument :=
      [{ label := none, value := name "f", comma := some (.ofPunctuation ',') },
       .ofValue (name "m")]
    let statement : Statement :=
      .ofItem (.expr (.call (name "XCTAssertThrowsError") (list arguments) (some handler)))
    ∃ statements, statement.split false = .ok statements ∧
      (∃ assertion : HandledAssertion statement, assertion.SplitsInto false statements) ∧
      (statements.map fun new => new.tokens.map Token.text) =
        [["let", "error", "=", "#expect", "(", "throws", ":", "(", "any", "Error", ")", ".", "self",
            ",", "m", ")", "\x7b", "f", "\x7d", ";"],
         ["log", "(", "error", ")", ";"], ["error", "?", ".", "code"]] ∧
      statements.getLast?.map Node.trailing = some " // done" := by
  intro name list handler arguments statement
  refine ⟨_, rfl, splits_handler rfl, ?_, ?_⟩
  · decide +kernel
  · decide +kernel

end SuiteMigration
