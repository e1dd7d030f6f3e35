import Mathlib.Tactic.Common
import SuiteMigration.Proofs.Expectation.Assertions

/-!
# Assertions about errors that are left

After the pass over assertions about errors, every expression is quiet. The expectation that
replaces an assertion has a closure and another name, so it is no assertion itself. Its body, its
messages and the statements of a handler come from parts that were migrated before, and moving them
changes trivia and redirects names, which keeps them quiet.

## Main results

* `carries_redirect` - redirecting the parameter of a handler keeps a property of calls
* `throughout_call?` - an expectation keeps a property of calls that its arguments have
* `throughout_flattened?` - so do the statements that a call with a handler becomes
* `Statement.map_of_flattened?_eq_some` - these statements, seen without trivia and semicolons
* `carries_throwingTransformer` - after the pass every expression is quiet
-/

namespace SuiteMigration

variable {p : Expr → Prop}

/-! ### Redirecting -/

/-- A reference that is redirected stays a name. -/
theorem alike_redirected (token : Token) :
    (Expr.identifier token).Alike (.identifier (redirected token)) where
  name name legacy named := by
    obtain rfl : errorName = name := Option.some.inj named
    exact absurd legacy (by decide)
  isEmpty := rfl
  ending := rfl

/-- Redirecting references keeps a property of calls throughout. -/
theorem carries_redirect (law : CallProperty p) (parameter : String) :
    (redirect parameter).Carries p p where
  expr expr parts visits yields := by
    have rebuilt := yields.throughout_of_rebuilt law visits
    simp only [redirect]
    split
    · split
      · refine .pure ⟨?_, alike_redirected _⟩
        refine law.throughout_of_parts rfl ?_
        exact throughout_nil
      · exact rebuilt
    · split
      · refine .pure ⟨?_, .ofEnding rfl rfl rfl⟩
        simpa [Expr.walk, walkExpr?, optionalError] using
          And.intro (law.other _ rfl) (And.intro (law.other _ rfl) (law.other _ rfl))
      · exact rebuilt
    · exact rebuilt
  closure closure parts visits yields := by
    simp only [redirect]
    split
    · exact .pure ⟨visits, rfl⟩
    · exact yields
  decl _ _ _ yields := yields
  statement _ _ _ yields := yields.singleton

/-- A statement keeps a property of calls when its references are redirected. -/
theorem Statement.throughout_redirected (law : CallProperty p) {statement : Statement}
    (parameter : Option String) (visits : Throughout p (statement.walk .everywhere)) :
    Throughout p ((statement.redirected parameter).walk .everywhere) := by
  cases parameter with
  | none => exact visits
  | some parameter => exact (carries_redirect law parameter).yields_statement statement visits ()

/-! ### The expectation -/

/-- The type of the expected error is no call. -/
theorem ThrowExpectation.throughout_errorType (law : CallProperty p)
    (expectation : ThrowExpectation) :
    Throughout p (expectation.errorType.walk .everywhere) := by
  cases expectation with
  | anyError =>
    simpa [errorType, Expr.walk, walkExpr?, ArgumentList.walk, walkArguments, Argument.ofValue]
      using And.intro (law.other _ rfl) (And.intro (law.other _ rfl) (law.other _ rfl))
  | never =>
    simpa [errorType, Expr.walk, walkExpr?] using And.intro (law.other _ rfl) (law.other _ rfl)

/-- The closure around a block has the calls of the block. -/
theorem ThrowExpectation.throughout_bodyClosure (law : CallProperty p) {body : Expr}
    (trailing : Trivia) (visits : Throughout p (body.walk .everywhere)) :
    Throughout p ((bodyClosure body trailing).walk .everywhere) := by
  have placed := Expr.throughout_setTrailing law .space (Expr.throughout_setLeading law "" visits)
  simpa [bodyClosure, Closure.walk, walkStatements, Statement.walk, Statement.ofItem, Item.walk]
    using placed

theorem ThroughoutArguments.spaced (law : CallProperty p) {messages : List Argument}
    (visits : ThroughoutArguments p messages) :
    ThroughoutArguments p (modifyFirst ThrowExpectation.spacedMessage messages) := by
  unfold ThroughoutArguments at visits ⊢
  cases messages with
  | nil => exact visits
  | cons first later =>
    simp only [modifyFirst, List.forall_mem_cons] at visits ⊢
    exact ⟨Expr.throughout_setLeading law .space visits.1, visits.2⟩

/-- What the expectation is made of: the callee, the arguments and the closure around the body. -/
theorem ThrowExpectation.exists_of_call?_eq_some {expectation : ThrowExpectation}
    {leading trailing : Trivia} {arguments : List Argument} {new : Expr}
    (found : expectation.call? leading trailing arguments = some new) :
    ∃ body messages list, positional arguments = body :: messages ∧ list.isClosed = true ∧
      list.arguments = expectation.typeArgument
          (modifyFirst spacedMessage (stripComma messages)).isEmpty ::
        modifyFirst spacedMessage (stripComma messages) ∧
      new = .call (.identifier ((Token.ofName "#expect").withLeading leading)) list
        (some (bodyClosure body.value trailing)) := by
  unfold call? at found
  split at found
  · cases found
  · rename_i body messages split_eq
    split at found
    · exact ⟨body, messages, _, split_eq, rfl, rfl, (Option.some.inj found).symm⟩
    · cases found

/-- The call that an assertion about a block becomes has the calls of its arguments. -/
theorem throughout_call? (law : CallProperty p) {expectation : ThrowExpectation}
    {leading trailing : Trivia} {arguments : List Argument} {new : Expr}
    (visits : ThroughoutArguments p arguments)
    (found : expectation.call? leading trailing arguments = some new) :
    Throughout p (new.walk .everywhere) := by
  obtain ⟨body, messages, list, split_eq, -, arguments_eq, rfl⟩ :=
    ThrowExpectation.exists_of_call?_eq_some found
  have kept := visits.positional
  rw [split_eq] at kept
  obtain ⟨bodyVisits, messagesVisits⟩ := List.forall_mem_cons.1 kept
  have messagesNew : ThroughoutArguments p _ :=
    ThroughoutArguments.spaced law (ThroughoutArguments.stripComma law messagesVisits)
  have argumentsNew : ThroughoutArguments p list.arguments := by
    rw [arguments_eq]
    exact List.forall_mem_cons.2 ⟨expectation.throughout_errorType law, messagesNew⟩
  -- The expectation itself is no legacy call, so only its parts matter.
  have named : (Expr.identifier ((Token.ofName "#expect").withLeading leading)).name? =
      some "#expect" := rfl
  refine law.throughout_of_parts (Expr.isLegacyCall_eq_false named (by decide)) ?_
  simp only [Expr.walk, List.tail_cons, walkClosure?, throughout_append, throughout_callArguments,
    throughout_expr, throughout_nil, and_true]
  exact ⟨⟨law.other _ rfl, argumentsNew⟩,
    ThrowExpectation.throughout_bodyClosure law trailing bodyVisits⟩

/-! ### The statements of a handler -/

/-- The declaration of the error has the calls of the expectation. -/
theorem throughout_errorBinding {leading : Trivia} {call : Expr}
    (visits : Throughout p (call.walk .everywhere)) :
    Throughout p ((errorBinding leading call).walk .everywhere) := by
  simpa [errorBinding, Statement.ofItem, Statement.walk, Item.walk, Decl.walk, walkBindings,
    walkClause?, Clause.walk, walkBlock?] using visits

/-- A statement that is moved out of a handler keeps a property of calls. -/
theorem Placement.throughout_place (law : CallProperty p) (placement : Placement)
    (parameter : Option String) {statement : Statement}
    (visits : Throughout p (statement.walk .everywhere)) :
    Throughout p ((placement.place parameter statement).walk .everywhere) :=
  Statement.throughout_redirected law parameter (Statement.throughout_setLeading law _ visits)

theorem throughout_joinStatements {statements : List Statement}
    (visits : ∀ statement ∈ statements, Throughout p (statement.walk .everywhere)) :
    ∀ statement ∈ joinStatements statements, Throughout p (statement.walk .everywhere) := by
  match statements with
  | [] => simp [joinStatements]
  | [last] => exact visits
  | first :: second :: later =>
    simp only [joinStatements, List.forall_mem_cons] at visits ⊢
    refine ⟨?_, throughout_joinStatements (List.forall_mem_cons.2 visits.2)⟩
    rw [Statement.walk_eq] at visits ⊢
    exact visits.1

theorem Statement.throughout_withClosingComments (law : CallProperty p) (placement : Placement)
    (closing : Trivia) {statement : Statement}
    (visits : Throughout p (statement.walk .everywhere)) :
    Throughout p ((statement.withClosingComments placement closing).walk .everywhere) := by
  unfold Statement.withClosingComments
  split
  · exact Statement.throughout_setTrailing law _ visits
  · exact visits

theorem Statement.throughout_withTail (law : CallProperty p) (trailing : Trivia)
    (semicolon : Option Token) {statement : Statement}
    (visits : Throughout p (statement.walk .everywhere)) :
    Throughout p ((statement.withTail trailing semicolon).walk .everywhere) := by
  have placed := Statement.throughout_setTrailing law
    ((if (Node.trailing statement).hasComment then Node.trailing statement else "") ++ trailing)
    visits
  rw [Statement.walk_eq] at placed ⊢
  exact placed

/-- What a call with a handler becomes: a binding, the statements of the handler in their new
place, and the tail of the call after the last of them. -/
theorem Statement.exists_of_flattened?_eq_some {statement : Statement} {firstInFile : Bool}
    {statements : List Statement} (found : statement.flattened? firstInFile = some statements) :
    ∃ callee list handler expectation call placement pieces,
      statement.item = .expr (.call callee list (some handler)) ∧
      ThrowExpectation.call? expectation "" "" list.arguments = some call ∧
      pieces = errorBinding (Node.leading callee) call ::
        handler.statements.map (Placement.place placement handler.errorParameter?) ∧
      statements = modifyLast
        (fun last =>
          (last.withClosingComments placement handler.rightBrace.leading).withTail
            handler.rightBrace.trailing statement.semicolon)
        (if placement.sharesLine then joinStatements pieces else pieces) := by
  rw [Statement.flattened?_eq] at found
  split at found
  · rename_i callee list handler item_eq
    obtain ⟨expectation, -, found⟩ := Option.bind_eq_some_iff.1 found
    obtain ⟨call, call_eq, rfl⟩ := Option.map_eq_some_iff.1 found
    exact ⟨callee, list, handler, expectation, call, _, _, item_eq, call_eq, rfl, rfl⟩
  · cases found

/-- Joining statements is not seen by what does not look at semicolons. -/
theorem map_joinStatements {β : Type} {view : Statement → β}
    (same : ∀ statement, view statement.withSemicolon = view statement)
    (statements : List Statement) :
    (joinStatements statements).map view = statements.map view := by
  match statements with
  | [] => rfl
  | [last] => rfl
  | first :: second :: later =>
    rw [joinStatements, List.map_cons, same, map_joinStatements same (second :: later),
      ← List.map_cons]

/-- A view of statements that sees neither the trivia after them nor added semicolons shows the
binding and the statements of the handler one by one. -/
theorem Statement.map_of_flattened?_eq_some {β : Type} (view : Statement → β)
    {statement : Statement} {firstInFile : Bool} {statements : List Statement} {callee : Expr}
    {list : CallArguments} {handler : Closure}
    (found : statement.flattened? firstInFile = some statements)
    (item_eq : statement.item = .expr (.call callee list (some handler)))
    (spaced : ∀ own trivia, view (Node.setTrailing own trivia) = view own)
    (closed : ∀ item semicolon,
      semicolon = statement.semicolon ∨ semicolon = some (.ofPunctuation ';') →
        view ⟨item, semicolon⟩ = view ⟨item, none⟩) :
    ∃ expectation call placement,
      ThrowExpectation.call? expectation "" "" list.arguments = some call ∧
      statements.map view = view (errorBinding (Node.leading callee) call) ::
        handler.statements.map fun own =>
          view (Placement.place placement handler.errorParameter? own) := by
  obtain ⟨callee', list', handler', expectation, call, placement, pieces, item_eq', call_eq, rfl,
    rfl⟩ := Statement.exists_of_flattened?_eq_some found
  obtain ⟨rfl, rfl, rfl⟩ : callee' = callee ∧ list' = list ∧ handler' = handler := by
    simpa [item_eq] using item_eq'.symm
  refine ⟨expectation, call, placement, call_eq, ?_⟩
  -- A semicolon is added only where there is none.
  have joined : ∀ own : Statement, view own.withSemicolon = view own := by
    rintro ⟨item, _ | semicolon⟩
    · exact closed item _ (.inr rfl)
    · rfl
  have commented : ∀ own : Statement,
      view (own.withClosingComments placement handler'.rightBrace.leading) = view own := by
    intro own
    unfold Statement.withClosingComments
    split
    · exact spaced own _
    · rfl
  have ended : ∀ own : Statement,
      view { own with semicolon := own.semicolon.or statement.semicolon } = view own := by
    rintro ⟨item, _ | semicolon⟩
    · exact closed item _ (.inl rfl)
    · rfl
  have same : ∀ own : Statement,
      view ((own.withClosingComments placement handler'.rightBrace.leading).withTail
        handler'.rightBrace.trailing statement.semicolon) = view own :=
    fun own => (ended _).trans ((spaced _ _).trans (commented own))
  rw [map_modifyLast same]
  split
  · rw [map_joinStatements joined, List.map_cons, List.map_map]
    rfl
  · rw [List.map_cons, List.map_map]
    rfl

/-- A flattened handler has the calls of the assertion. -/
theorem throughout_flattened? (law : CallProperty p) {statement : Statement} {firstInFile : Bool}
    {statements : List Statement} (visits : Throughout p (statement.walk .everywhere))
    (found : statement.flattened? firstInFile = some statements) :
    Throughout p (walkStatements .everywhere statements) := by
  obtain ⟨callee, list, handler, expectation, call, placement, pieces, item_eq, call_eq,
    pieces_eq, rfl⟩ := Statement.exists_of_flattened?_eq_some found
  rw [Statement.walk_eq, item_eq] at visits
  simp only [Item.walk, Expr.walk, walkClosure?, throughout_expr, throughout_append,
    throughout_callArguments] at visits
  obtain ⟨-, ⟨-, argumentsVisits⟩, handlerVisits⟩ := visits
  have pieceVisits : ∀ piece ∈ pieces, Throughout p (piece.walk .everywhere) := by
    rw [pieces_eq, List.forall_mem_cons]
    refine ⟨throughout_errorBinding (throughout_call? law argumentsVisits call_eq), ?_⟩
    intro piece member
    obtain ⟨own, ownMember, rfl⟩ := List.mem_map.1 member
    have ownVisits : Throughout p (own.walk .everywhere) := by
      obtain ⟨left, signature, ownStatements, right⟩ := handler
      simp only [Closure.walk, throughout_closure, throughout_binds, throughout_statements]
        at handlerVisits
      exact handlerVisits own ownMember
    exact placement.throughout_place law _ ownVisits
  -- The tail of the call only changes trivia, as does joining the pieces on one line.
  rw [throughout_statements]
  refine modifyLast_forall ?_ fun last lastVisits =>
    Statement.throughout_withTail law _ _
      (Statement.throughout_withClosingComments law _ _ lastVisits)
  split
  · exact throughout_joinStatements pieceVisits
  · exact pieceVisits

/-! ### The pass over assertions about errors -/

/-- What becomes an expectation about a block is a closed call without a closure behind it. -/
theorem exists_of_throwing?_eq_some {expr new : Expr} (found : expr.throwing? = some new) :
    ∃ expectation callee list, expr = .call callee list none ∧ list.isClosed = true ∧
      ThrowExpectation.call? expectation (Node.leading callee) (Node.trailing list.rightParen)
        list.arguments = some new := by
  rw [Expr.throwing?_eq] at found
  split at found
  · rename_i callee list
    obtain ⟨expectation, known, found⟩ := Option.bind_eq_some_iff.1 found
    exact ⟨expectation, callee, list, rfl, isClosed_of_throwExpectation? known, found⟩
  · cases found

/-- The closure of the expectation takes over the trivia after the assertion. -/
theorem alike_call? {expectation : ThrowExpectation} {leading : Trivia} {callee : Expr}
    {list : CallArguments} {new : Expr} (closed : list.isClosed = true)
    (found : expectation.call? leading (Node.trailing list.rightParen) list.arguments = some new) :
    (Expr.call callee list none).Alike new := by
  obtain ⟨body, messages, newList, -, -, -, rfl⟩ := ThrowExpectation.exists_of_call?_eq_some found
  obtain ⟨inner, rfl, -⟩ := CallArguments.exists_eq_ofList closed
  refine .ofEnding rfl rfl ?_
  simp [Expr.tokens, tokensOfClosure?, Closure.endTrivia_tokens, ThrowExpectation.bodyClosure,
    Token.withTrailing, CallArguments.ofList, CallArguments.tokens, Node.trailing, Node.tokens]

/-- After the pass every call is quiet. -/
theorem carries_throwingTransformer :
    throwingTransformer.Carries (fun _ => True) Expr.IsQuiet where
  expr expr parts _ yields := by
    rw [throwingTransformer_expr]
    refine yields.bind fun new rebuilt => ?_
    -- The parts are quiet by now, so what is left is the rebuilt expression itself.
    cases found : new.throwing? with
    | none => exact .pure ⟨throughout_walk.2 ⟨found, rebuilt.parts⟩, rebuilt.alike⟩
    | some expectation =>
      obtain ⟨_, callee, list, rfl, closed, call_eq⟩ := exists_of_throwing?_eq_some found
      have parts := rebuilt.parts
      simp only [Expr.walk, List.tail_cons, throughout_append, throughout_callArguments] at parts
      exact .after fun _ => .pure
        ⟨throughout_call? callProperty_isQuiet parts.1.2 call_eq,
          rebuilt.alike.trans (alike_call? closed call_eq)⟩
  closure _ _ _ yields := yields
  decl _ _ _ yields := yields
  statement statement parts _ yields := by
    rw [throwingTransformer_statement]
    refine .after fun _ => .after fun _ => yields.bind fun new visits => ?_
    split
    · rename_i statements found
      exact .after fun _ => .pure (throughout_flattened? callProperty_isQuiet visits found)
    · exact .pure (by simpa [walkStatements] using visits)

end SuiteMigration
