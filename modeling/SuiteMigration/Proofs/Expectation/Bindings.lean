import Mathlib.Tactic.Common
import SuiteMigration.Proofs.Expectation.Throwing
import SuiteMigration.Proofs.Tree.Spacing
import SuiteMigration.Proofs.Tree.Tracing
import SuiteMigration.Reading.Source

/-!
# Bindings of the error

Every call with a handler that is split leaves a binding of `error` in the list of statements where
the call stood, and so does every such call in the statements of the handler, which move to the same
list. Nothing else in a file is bound anew. So after the pass a list binds `error` no more often
than it held such calls before, if nothing was called `error` in the first place.

## Main definitions

* `declarations` - how many statements of a list declare a name as a variable
* `handlersOf` - how many handlers are split off in a list, with those inside of these handlers
* `SourceFile.eachList` - a condition on every list of statements in a file

## Main results

* `yields_declarations` - the bindings of `error` that the pass leaves in a list
* `eachList_throwingPass` - a file with at most one handler in each list
-/

namespace SuiteMigration

variable {σ : Type}

/-! ### Conditions on every list -/

mutual

/-- Every note in the mark is true. -/
def Mark.holds : Mark Bool → Bool
  | .name _ | .word _ => true
  | .group (.closure _) parts => holds parts
  | .group (.list note) parts => note && holds parts

/-- Every note in the marks is true. -/
def holds : List (Mark Bool) → Bool
  | [] => true
  | mark :: later => mark.holds && holds later

end

/-- The condition holds of every list of statements in the file: its own, and those of blocks,
closures and cases. -/
def SourceFile.eachList (condition : List Statement → Bool) (file : SourceFile) : Bool :=
  holds (file.outline condition)

@[simp] theorem holds_nil : holds [] = true := by
  rw [holds]

@[simp] theorem holds_cons (mark : Mark Bool) (marks : List (Mark Bool)) :
    holds (mark :: marks) = (mark.holds && holds marks) := by
  rw [holds]

@[simp] theorem holds_append (first second : List (Mark Bool)) :
    holds (first ++ second) = (holds first && holds second) := by
  induction first with
  | nil => simp
  | cons mark first ih => simp [ih, Bool.and_assoc]

@[simp] theorem holds_plain (tokens : List Token) : holds (plain tokens) = true := by
  unfold plain
  induction tokens.map Token.word with
  | nil => exact holds_nil
  | cons word words ih => rw [List.map_cons, holds_cons, ih, Mark.holds, Bool.and_self]

/-- Every note in the second outline is true if every note in the first one is. -/
def Sustains (old new : List (Mark Bool)) : Prop :=
  holds old = true → holds new = true

/-- Sustaining one list of marks after the other sustains both. -/
theorem compositional_sustains : Compositional Sustains where
  plain _ _ := holds_plain _
  append first second all := by
    rw [holds_append, Bool.and_eq_true] at all ⊢
    exact ⟨first all.1, second all.2⟩
  closure _ _ _ parts all := by
    simp only [holds_cons, holds_nil, Mark.holds, Bool.and_true] at all ⊢
    exact parts all

section Lists

variable {condition : List Statement → Bool}

/-- A condition holds of all lists in some statements when it does in each of them. -/
theorem holds_statements {statements : List Statement} :
    holds (outlineOfStatements condition statements) = true ↔
      ∀ statement ∈ statements, holds (statement.outline condition) = true := by
  induction statements with
  | nil => simp [outlineOfStatements]
  | cons statement later ih => simp [outlineOfStatements, ih]

/-- The condition holds of every list in the values of the arguments. -/
def HoldsOfArguments (condition : List Statement → Bool) (arguments : List Argument) : Prop :=
  ∀ argument ∈ arguments, holds (argument.value.outline condition) = true

theorem holds_arguments {arguments : List Argument} :
    holds (outlineOfArguments condition arguments) = true ↔
      HoldsOfArguments condition arguments := by
  unfold HoldsOfArguments
  induction arguments with
  | nil => simp [outlineOfArguments]
  | cons argument later ih =>
    obtain ⟨label, value, comma⟩ := argument
    simp [outlineOfArguments, ih]

theorem holds_callArguments {list : CallArguments} :
    holds (list.outline condition) = true ↔ HoldsOfArguments condition list.arguments := by
  obtain ⟨left, arguments, right⟩ := list
  simp [CallArguments.outline, holds_arguments]

/-- The statements of a handler are a list of their own. -/
theorem holds_handlerCall {callee : Expr} {list : CallArguments} {left right : Token}
    {signature : Option ClosureSignature} {statements : List Statement} :
    holds ((Expr.call callee list
        (some ⟨left, signature, statements, right⟩)).outline condition) = true ↔
      holds (callee.outline condition) = true ∧ HoldsOfArguments condition list.arguments ∧
        condition statements = true ∧ holds (outlineOfStatements condition statements) = true := by
  simp [Expr.outline, outlineOfClosure?, Closure.outline, Mark.holds, holds_callArguments]

theorem Statement.holds_outline {statement : Statement} :
    holds (statement.outline condition) = holds (statement.item.outline condition) := by
  obtain ⟨item, semicolon⟩ := statement
  simp [Statement.outline]

end Lists

/-! ### Declarations -/

/-- How many statements of the list declare the name as a variable. -/
def declarations (name : String) (statements : List Statement) : Nat :=
  statements.countP fun statement => statement.declaredNames.contains name

/-- The declarations of a name are the statements that declare it. -/
theorem declarations_eq_countP (name : String) (statements : List Statement) :
    declarations name statements =
      (statements.map Statement.declaredNames).countP fun names => names.contains name := by
  rw [List.countP_map]
  rfl

theorem declarations_append (name : String) (first second : List Statement) :
    declarations name (first ++ second) = declarations name first + declarations name second :=
  List.countP_append

theorem declarations_cons (name : String) (statement : Statement) (later : List Statement) :
    declarations name (statement :: later) =
      declarations name later + if statement.declaredNames.contains name then 1 else 0 :=
  List.countP_cons

section Declared

variable {t : Transformer σ} (passive : ∀ decl parts, t.decl decl parts = parts)

include passive

/-- A transformer that leaves declarations to their parts keeps the names they declare. -/
theorem Decl.yields_declaredNames (decl : Decl) :
    Yields (decl.transform t) fun new => new.declaredNames = decl.declaredNames := by
  rw [Decl.transform.eq_def, passive]
  match decl with
  | .variable header bindings =>
    exact (yields_bindingNames t bindings).bind fun _ same => .pure same
  | .importing _ | .raw _ | .type _ _ | .function _ _ | .initializer _ _ | .finalizer _ _ =>
    exact fun _ => rfl

/-- A transformer that does nothing with declarations keeps the declared names. -/
theorem Statement.yields_declaredNames (statement : Statement) :
    Yields (statement.transform t) fun new => new.declaredNames = statement.declaredNames := by
  obtain ⟨item, semicolon⟩ := statement
  cases item with
  | decl decl =>
    have kept : Yields (Item.transform t (.decl decl)) fun new =>
        new.declaredNames = decl.declaredNames :=
      (decl.yields_declaredNames passive).bind fun _ same => .pure same
    exact kept.bind fun _ same => .pure same
  | _ => exact fun _ => rfl

/-- Declared names are kept one by one if every statement stays the only one in its place. -/
theorem yields_map_declaredNames
    (single : ∀ statement parts, t.statement statement parts = do return [← parts])
    (statements : List Statement) :
    Yields (transformStatements t statements) fun new =>
      new.map Statement.declaredNames = statements.map Statement.declaredNames := by
  induction statements with
  | nil => exact .pure rfl
  | cons statement later ih =>
    have kept : Yields (t.statement statement (statement.transform t)) fun new =>
        new.map Statement.declaredNames = [statement.declaredNames] := by
      rw [single]
      exact (statement.yields_declaredNames passive).bind fun _ same =>
        .pure (congrArg (· :: []) same)
    refine kept.bind fun _ same => ih.bind fun _ sameLater => .pure ?_
    rw [List.map_append, same, sameLater, List.map_cons, List.singleton_append]

end Declared

/-- Redirecting changes no name that a statement declares. -/
theorem Statement.declaredNames_redirected (statement : Statement) (parameter : Option String) :
    (statement.redirected parameter).declaredNames = statement.declaredNames := by
  cases parameter with
  | none => rfl
  | some parameter =>
    have kept : Yields (statement.transform (redirect parameter)) fun new =>
        new.declaredNames = statement.declaredNames :=
      statement.yields_declaredNames fun _ _ => rfl
    exact kept ()

/-! ### Handlers -/

/-- A handler of the call is split off: the call is an assertion about errors whose first argument
can be the body of an expectation. -/
def splitsHandler (callee : Expr) (list : CallArguments) : Bool :=
  (throwExpectation? callee list).isSome && list.hasUsableBody

mutual

/-- How many handlers are split off in the list, with those inside of these handlers. -/
def handlersOf : List Statement → Nat
  | [] => 0
  | statement :: later => statement.handlers + handlersOf later

/-- The handlers that are split off at a statement. -/
def Statement.handlers : Statement → Nat
  | ⟨.expr (.call callee list (some ⟨_, _, statements, _⟩)), _⟩ =>
    if splitsHandler callee list then handlersOf statements + 1 else 0
  | _ => 0

end

section Flattened

variable {statement : Statement} {firstInFile : Bool} {statements : List Statement} {callee : Expr}
  {list : CallArguments} {handler : Closure}

/-- A call with a handler is split just if its handler is split off. -/
theorem isSome_flattened?
    (item_eq : statement.item = .expr (.call callee list (some handler))) :
    (statement.flattened? firstInFile).isSome = splitsHandler callee list := by
  cases expectation_eq : throwExpectation? callee list with
  | none => simp [Statement.flattened?_eq, item_eq, splitsHandler, expectation_eq]
  | some expectation =>
    cases call_eq : expectation.call? "" "" list.arguments with
    | none =>
      have unusable := ThrowExpectation.call?_eq_none_iff.1 call_eq
      simp [Statement.flattened?_eq, item_eq, splitsHandler, expectation_eq, call_eq, unusable]
    | some call =>
      have usable : list.hasUsableBody = true := by
        rw [← Bool.not_eq_false, ← ThrowExpectation.call?_eq_none_iff, call_eq]
        simp
      simp [Statement.flattened?_eq, item_eq, splitsHandler, expectation_eq, call_eq, usable]

/-- A statement that is flattened has a handler to be split. -/
theorem splitsHandler_of_flattened? (found : statement.flattened? firstInFile = some statements)
    (item_eq : statement.item = .expr (.call callee list (some handler))) :
    splitsHandler callee list = true := by
  rw [← isSome_flattened? item_eq, found]
  rfl

/-- The statements that replace a split call: one that binds `error`, and those of the handler, with
the names that they declared before. -/
theorem declaredNames_flattened? (found : statement.flattened? firstInFile = some statements)
    (item_eq : statement.item = .expr (.call callee list (some handler))) :
    statements.map Statement.declaredNames =
      [errorName] :: handler.statements.map Statement.declaredNames := by
  obtain ⟨expectation, call, placement, -, pieces_eq⟩ :=
    Statement.map_of_flattened?_eq_some Statement.declaredNames found item_eq
      (fun own trivia => ((own.keeps shallow_unnoted).setTrailing trivia).2) fun _ _ _ => rfl
  rw [pieces_eq]
  refine congrArg _ (List.map_congr_left fun own _ => ?_)
  exact (Statement.declaredNames_redirected _ _).trans ((own.keeps shallow_unnoted).setLeading _).2

theorem declarations_flattened? (found : statement.flattened? firstInFile = some statements)
    (item_eq : statement.item = .expr (.call callee list (some handler))) :
    declarations errorName statements = declarations errorName handler.statements + 1 := by
  rw [declarations_eq_countP, declaredNames_flattened? found item_eq, declarations_eq_countP,
    List.countP_cons]
  rfl

/-- An expectation has a closure, but its name is none of the legacy framework. -/
theorem flattened?_of_call?_eq_some {expectation : ThrowExpectation} {leading trailing : Trivia}
    {arguments : List Argument} {new : Expr}
    (found : expectation.call? leading trailing arguments = some new) (semicolon : Option Token) :
    (⟨.expr new, semicolon⟩ : Statement).flattened? firstInFile = none := by
  obtain ⟨_, _, _, -, -, -, rfl⟩ := ThrowExpectation.exists_of_call?_eq_some found
  rw [← Option.not_isSome_iff_eq_none, isSome_flattened? rfl]
  simp [splitsHandler, throwExpectation?, Expr.name?, Token.ofName, Token.withLeading,
    ThrowExpectation.ofName?]

end Flattened

/-! ### What the pass makes of a call -/

/-- A handler that is split off after its call was rebuilt could be split off before. -/
theorem splitsHandler_of_alike {callee newCallee : Expr} {list newList : CallArguments}
    (calleeAlike : callee.Alike newCallee) (listAlike : list.Alike newList)
    (splits : splitsHandler newCallee newList = true) : splitsHandler callee list = true := by
  simp only [splitsHandler, Bool.and_eq_true] at splits ⊢
  refine ⟨?_, listAlike.hasUsableBody_eq ▸ splits.2⟩
  unfold throwExpectation? at splits ⊢
  rw [listAlike.isClosed] at splits
  split at splits
  · obtain ⟨expectation, found⟩ := Option.isSome_iff_exists.1 splits.1
    obtain ⟨name, named, expected⟩ := Option.bind_eq_some_iff.1 found
    -- The name is one of the legacy framework, and no such name is made by the pass.
    have oldNamed := calleeAlike.name name (isLegacyName_of_ofName? expected) named
    simp [*]
  · cases splits.1

/-- The pass first rebuilds an expression, and then leaves it or makes an expectation of it. -/
theorem Yields.throwing {expr : Expr} {parts : StateM ThrowingState Expr} {post goal : Expr → Prop}
    (yields : Yields parts post)
    (kept : ∀ new, post new → new.throwing? = none → goal new)
    (made : ∀ new expectation, post new → new.throwing? = some expectation → goal expectation) :
    Yields (throwingTransformer.expr expr parts) goal := by
  rw [throwingTransformer_expr]
  refine yields.bind fun new holds => ?_
  split
  · rename_i expectation found
    exact .after fun _ => .pure (made new expectation holds found)
  · rename_i quiet
    exact .pure (kept new holds quiet)

/-- An expression that is no call with a handler does not become one that is split. -/
theorem yields_flattened?_eq_none {expr : Expr}
    (other : ∀ callee list handler, expr ≠ .call callee list (some handler)) :
    Yields (expr.transform throwingTransformer) fun new => ∀ semicolon firstInFile,
      (⟨.expr new, semicolon⟩ : Statement).flattened? firstInFile = none := by
  rw [Expr.transform.eq_def]
  match expr with
  | .call callee list none =>
    have rebuilt : ∀ parts : StateM ThrowingState Expr,
        Yields parts (fun new => ∃ callee list, new = .call callee list none) →
        Yields (throwingTransformer.expr (.call callee list none) parts) fun new =>
          ∀ semicolon firstInFile,
            (⟨.expr new, semicolon⟩ : Statement).flattened? firstInFile = none := by
      refine fun parts yields => yields.throwing ?_ ?_
      · rintro _ ⟨newCallee, newList, rfl⟩ _ semicolon firstInFile
        rfl
      · rintro new expectation - found semicolon firstInFile
        obtain ⟨_, _, _, -, -, call_eq⟩ := exists_of_throwing?_eq_some found
        exact flattened?_of_call?_eq_some call_eq semicolon
    exact rebuilt _ fun _ => ⟨_, _, rfl⟩
  | .call callee list (some handler) => exact absurd rfl (other callee list handler)
  | .identifier _ | .literal _ | .raw _ | .member _ _ _ | .index _ _ | .sequence _ _
  | .prefixed _ _ | .suffixed _ _ | .trying _ _ _ | .awaiting _ _ | .tuple _
  | .collection _ _ _ | .closure _ | .specialized _ _ => exact fun _ _ _ => rfl

/-- A call with a handler stays one like it. What is said of the statements of the handler holds of
them in the new call. -/
theorem yields_handlerCall {callee : Expr} {list : CallArguments} {left right : Token}
    {signature : Option ClosureSignature} {statements : List Statement}
    {post : List Statement → Prop}
    (yields : Yields (transformStatements throwingTransformer statements) post) :
    Yields ((Expr.call callee list (some ⟨left, signature, statements, right⟩)).transform
        throwingTransformer) fun new =>
      ∃ newCallee newList newStatements,
        new = .call newCallee newList (some ⟨left, signature, newStatements, right⟩) ∧
        callee.Alike newCallee ∧ list.Alike newList ∧ post newStatements := by
  have calleeNew := carries_throwingTransformer.yields_expr callee fun _ _ => trivial
  have listNew := carries_throwingTransformer.yields_callArguments list fun _ _ => trivial
  have handlerNew : Yields
      (transformClosure? throwingTransformer (some ⟨left, signature, statements, right⟩))
      fun new => ∃ newStatements,
        new = some ⟨left, signature, newStatements, right⟩ ∧ post newStatements :=
    fun state => ⟨_, rfl, yields state⟩
  rw [Expr.transform.eq_def]
  refine Yields.throwing (calleeNew.bind fun newCallee calleeNew =>
    listNew.bind fun newList listNew => handlerNew.bind fun _ handlerNew => .pure ?_)
    (fun _ kept _ => kept) ?_
  · obtain ⟨newStatements, rfl, known⟩ := handlerNew
    exact ⟨newCallee, newList, newStatements, rfl, calleeNew.2, listNew.alike, known⟩
  · -- With a closure behind it, a call is never made an expectation.
    rintro _ expectation ⟨newCallee, newList, newStatements, rfl, -⟩ found
    exact absurd found (by rw [isQuiet_of_closure]; nofun)

/-- The call of an assertion with a handler leaves one binding more than the handler. -/
theorem Statement.yields_split {callee : Expr} {list : CallArguments} {left right : Token}
    {signature : Option ClosureSignature} {statements : List Statement} (semicolon : Option Token)
    {post : List Statement → Prop}
    (yields : Yields (transformStatements throwingTransformer statements) post) :
    Yields (Statement.transform throwingTransformer
        ⟨.expr (.call callee list (some ⟨left, signature, statements, right⟩)), semicolon⟩)
      fun new => ∀ firstInFile pieces, new.flattened? firstInFile = some pieces →
        splitsHandler callee list = true ∧ ∃ inner, post inner ∧
          declarations errorName pieces = declarations errorName inner + 1 := by
  intro state firstInFile pieces found
  obtain ⟨newCallee, newList, newStatements, new_eq, calleeAlike, listAlike, known⟩ :=
    yields_handlerCall yields state
  have item_eq : (Statement.transform throwingTransformer
      ⟨.expr (.call callee list (some ⟨left, signature, statements, right⟩)), semicolon⟩
      state).1.item = .expr (.call newCallee newList
        (some ⟨left, signature, newStatements, right⟩)) :=
    congrArg Item.expr new_eq
  have splits := splitsHandler_of_flattened? found item_eq
  exact ⟨splitsHandler_of_alike calleeAlike listAlike splits, newStatements, known,
    declarations_flattened? found item_eq⟩

theorem Statement.yields_unsplit {statement : Statement}
    (other : ∀ callee list handler semicolon,
      statement ≠ ⟨.expr (.call callee list (some handler)), semicolon⟩) :
    Yields (statement.transform throwingTransformer) fun new =>
      ∀ firstInFile, new.flattened? firstInFile = none := by
  obtain ⟨item, semicolon⟩ := statement
  cases item with
  | expr expr =>
    have unsplit := yields_flattened?_eq_none fun callee list handler same =>
      other callee list handler semicolon (same ▸ rfl)
    exact fun state firstInFile => unsplit state semicolon firstInFile
  | _ => exact fun _ _ => rfl

/-- A statement that does not declare `error` leaves no binding of it unless it is split. -/
theorem Statement.yields_expanded {statement : Statement} {bound : Nat}
    (free : errorName ∉ statement.declaredNames)
    (split : Yields (statement.transform throwingTransformer) fun new =>
      ∀ firstInFile pieces, new.flattened? firstInFile = some pieces →
        declarations errorName pieces ≤ bound) :
    Yields (throwingTransformer.statement statement (statement.transform throwingTransformer))
      fun new => declarations errorName new ≤ bound := by
  have named : Yields (statement.transform throwingTransformer) fun new =>
      new.declaredNames = statement.declaredNames :=
    statement.yields_declaredNames fun _ _ => rfl
  rw [throwingTransformer_statement]
  refine .after fun _ => .after fun _ => (named.and split).bind fun new ⟨same, split⟩ => ?_
  split
  · rename_i pieces found
    exact .after fun _ => .pure (split _ pieces found)
  · -- The statement stays alone, with the names that it declared before.
    refine .pure ?_
    rw [declarations_cons, same]
    simp [free, declarations]

/-- In every list the pass leaves at most one binding of `error` for each handler that it splits
off there. -/
theorem yields_declarations {condition : List Statement → Bool}
    (undeclared : ∀ list, condition list = true → declarations errorName list = 0)
    (statements : List Statement) :
    holds (outlineOfStatements condition statements) = true →
      declarations errorName statements = 0 →
      Yields (transformStatements throwingTransformer statements) fun new =>
        declarations errorName new ≤ handlersOf statements := by
  -- The induction goes through the list, and into the handlers that are split off.
  refine handlersOf.induct
    (fun statements => holds (outlineOfStatements condition statements) = true →
      declarations errorName statements = 0 →
      Yields (transformStatements throwingTransformer statements) fun new =>
        declarations errorName new ≤ handlersOf statements)
    (fun statement => holds (statement.outline condition) = true →
      Yields (statement.transform throwingTransformer) fun new =>
        ∀ firstInFile pieces, new.flattened? firstInFile = some pieces →
          declarations errorName pieces ≤ statement.handlers)
    ?split ?whole ?other ?nil ?cons statements
  case split =>
    intro callee list left signature inner right semicolon splits ih all
    rw [Statement.holds_outline] at all
    obtain ⟨-, -, innerHolds, innerAll⟩ := holds_handlerCall.1 all
    have innerNew := ih innerAll (undeclared inner innerHolds)
    refine (Statement.yields_split semicolon innerNew).mono
      fun new split firstInFile pieces found => ?_
    obtain ⟨-, newInner, few, pieces_eq⟩ := split firstInFile pieces found
    rw [pieces_eq, Statement.handlers, if_pos splits]
    exact Nat.succ_le_succ few
  case whole =>
    intro callee list left signature inner right semicolon whole _
    have innerNew : Yields (transformStatements throwingTransformer inner) fun _ => True :=
      fun _ => trivial
    refine (Statement.yields_split semicolon innerNew).mono
      fun new split firstInFile pieces found => ?_
    exact absurd (split firstInFile pieces found).1 whole
  case other =>
    intro statement other _
    have unsplit : Yields (statement.transform throwingTransformer) fun new =>
        ∀ firstInFile, new.flattened? firstInFile = none := by
      refine Statement.yields_unsplit ?_
      rintro callee list ⟨left, signature, inner, right⟩ semicolon same
      exact other callee list left signature inner right semicolon same
    refine unsplit.mono fun new whole firstInFile pieces found => ?_
    rw [whole firstInFile] at found
    cases found
  case nil => exact fun _ _ => .pure (Nat.le_refl 0)
  case cons =>
    intro statement later ih ihLater all free
    simp only [outlineOfStatements, holds_append, Bool.and_eq_true] at all
    rw [declarations_cons, Nat.add_eq_zero_iff] at free
    have expanded := Statement.yields_expanded (by simpa using free.2) (ih all.1)
    refine expanded.bind fun _ few => (ihLater all.2 free.1).bind fun _ fewLater => .pure ?_
    rw [declarations_append, handlersOf]
    omega

/-! ### Every list of a file -/

section EachList

variable {condition : List Statement → Bool}

/-- Redirecting keeps what is said of the lists, because it keeps the declared names. -/
theorem traces_redirect_sustains (shallow : Shallow condition) (parameter : String) :
    (redirect parameter).Traces condition condition Sustains where
  toCompositional := compositional_sustains
  name token := by
    simp only [redirect]
    split
    · exact .pure fun _ => by simp [Expr.outline, Mark.holds]
    · exact .pure id
  expr expr parts unnamed yields := by
    simp only [redirect]
    split
    · cases unnamed
    · split
      · exact .pure fun _ => by simp [Expr.outline, outlineOfExpr?, optionalError, Mark.holds]
      · exact yields
    · exact yields
  rebind closure parts yields := by
    simp only [redirect]
    split
    · exact .pure id
    · exact yields
  decl _ _ yields := yields
  statement _ _ yields := yields.outline_singleton
  list statements := by
    -- The renamer keeps what the statements of a list declare, and the condition looks at nothing
    -- else.
    have named : Yields (transformStatements (redirect parameter) statements) fun new =>
        new.map Statement.declaredNames = statements.map Statement.declaredNames :=
      yields_map_declaredNames (fun _ _ => rfl) (fun _ _ => rfl) statements
    refine named.mono fun new same kept all => ?_
    simp only [holds_cons, holds_nil, Mark.holds, Bool.and_true, Bool.and_eq_true] at all ⊢
    exact ⟨shallow _ _ same ▸ all.1, kept all.2⟩

theorem HoldsOfArguments.stripComma (shallow : Shallow condition) {arguments : List Argument}
    (all : HoldsOfArguments condition arguments) :
    HoldsOfArguments condition (stripComma arguments) := by
  refine modifyLast_forall all fun argument holdsOf => ?_
  unfold Argument.withoutComma
  split
  · exact holdsOf
  · split
    · rw [(argument.value.keeps shallow).setTrailing]
      exact holdsOf
    · exact holdsOf

theorem HoldsOfArguments.spaced (shallow : Shallow condition) {messages : List Argument}
    (all : HoldsOfArguments condition messages) :
    HoldsOfArguments condition (modifyFirst ThrowExpectation.spacedMessage messages) := by
  unfold HoldsOfArguments at all ⊢
  cases messages with
  | nil => exact all
  | cons first later =>
    simp only [modifyFirst, List.forall_mem_cons, ThrowExpectation.spacedMessage] at all ⊢
    rw [(first.value.keeps shallow).setLeading]
    exact all

/-- An expectation has one list of its own, with the body as its only statement. -/
theorem holds_call? (shallow : Shallow condition)
    (single : ∀ expr, condition [.ofItem (.expr expr)] = true) {expectation : ThrowExpectation}
    {leading trailing : Trivia} {arguments : List Argument} {new : Expr}
    (all : HoldsOfArguments condition arguments)
    (found : expectation.call? leading trailing arguments = some new) :
    holds (new.outline condition) = true := by
  obtain ⟨body, messages, list, split_eq, -, arguments_eq, rfl⟩ :=
    ThrowExpectation.exists_of_call?_eq_some found
  have kept : HoldsOfArguments condition (body :: messages) :=
    split_eq ▸ fun argument member => all argument (List.mem_filter.1 member).1
  obtain ⟨bodyHolds, messagesHold⟩ := List.forall_mem_cons.1 kept
  have messagesNew : HoldsOfArguments condition
      (modifyFirst ThrowExpectation.spacedMessage (stripComma messages)) :=
    .spaced shallow (.stripComma shallow messagesHold)
  have typeHolds : holds (expectation.errorType.outline condition) = true := by
    cases expectation <;>
      simp [ThrowExpectation.errorType, Expr.outline, outlineOfExpr?, ArgumentList.outline,
        outlineOfArguments, Argument.ofValue, Mark.holds]
  have argumentsHold : HoldsOfArguments condition list.arguments := by
    rw [arguments_eq]
    exact List.forall_mem_cons.2 ⟨typeHolds, messagesNew⟩
  refine holds_handlerCall.2 ⟨?_, argumentsHold, single _, ?_⟩
  · simp [Expr.outline, Mark.holds]
  · rw [outlineOfStatements_singleton, Statement.holds_outline, Statement.ofItem, Item.outline,
      (Expr.keeps shallow _).setTrailing, (Expr.keeps shallow _).setLeading]
    exact bodyHolds

theorem Placement.holds_place (shallow : Shallow condition) (placement : Placement)
    (parameter : Option String) {statement : Statement}
    (all : holds (statement.outline condition) = true) :
    holds ((placement.place parameter statement).outline condition) = true := by
  have placed : holds ((Node.setLeading statement
      (placement.leading (Node.leading statement))).outline condition) = true := by
    rw [((statement.keeps shallow).setLeading _).1]
    exact all
  cases parameter with
  | none => exact placed
  | some parameter =>
    exact (traces_redirect_sustains shallow parameter).yields_statement _ () placed

/-- The handler gives up its own list, and its statements keep theirs. -/
theorem holds_flattened? (shallow : Shallow condition)
    (single : ∀ expr, condition [.ofItem (.expr expr)] = true) {statement : Statement}
    {firstInFile : Bool} {statements : List Statement}
    (all : holds (statement.outline condition) = true)
    (found : statement.flattened? firstInFile = some statements) :
    holds (outlineOfStatements condition statements) = true := by
  obtain ⟨callee, list, ⟨left, signature, inner, right⟩, -, -, -, -, item_eq, -⟩ :=
    Statement.exists_of_flattened?_eq_some found
  rw [Statement.holds_outline, item_eq] at all
  obtain ⟨-, argumentsHold, -, innerHolds⟩ := holds_handlerCall.1 all
  obtain ⟨expectation, call, placement, call_eq, pieces_eq⟩ :=
    Statement.map_of_flattened?_eq_some (fun own => holds (own.outline condition)) found item_eq
      (fun own trivia => congrArg holds ((own.keeps shallow).setTrailing trivia).1)
      fun item _ _ => by rw [Statement.holds_outline, Statement.holds_outline]
  have callHolds := holds_call? shallow single argumentsHold call_eq
  rw [holds_statements] at innerHolds ⊢
  -- The binding has only the lists of the expectation, and the other pieces are those of the
  -- handler in their new place.
  have pieces : ∀ value ∈ statements.map fun own => holds (own.outline condition),
      value = true := by
    rw [pieces_eq, List.forall_mem_cons]
    refine ⟨?_, ?_⟩
    · simpa [errorBinding, Statement.ofItem, Statement.outline, Item.outline, Decl.outline,
        outlineOfBindings, outlineOfClause?, Clause.outline, outlineOfBlock?] using callHolds
    · intro value member
      obtain ⟨own, ownMember, rfl⟩ := List.mem_map.1 member
      exact placement.holds_place shallow _ (innerHolds own ownMember)
  exact fun own member => pieces _ (List.mem_map_of_mem member)

end EachList

/-- Nothing is called `error` in the list, and at most so many handlers are split off in it. -/
def splitsAtMost (bound : Nat) (list : List Statement) : Bool :=
  declarations errorName list == 0 && decide (handlersOf list ≤ bound)

/-- The list binds `error` at most so many times. -/
def bindsAtMost (bound : Nat) (list : List Statement) : Bool :=
  decide (declarations errorName list ≤ bound)

/-- The bound looks at the names that the statements declare, and at nothing else. -/
theorem shallow_bindsAtMost (bound : Nat) : Shallow (bindsAtMost bound) := by
  intro first second same
  simp only [bindsAtMost, declarations_eq_countP, same]

/-- One expression binds nothing. -/
theorem bindsAtMost_expr (bound : Nat) (expr : Expr) :
    bindsAtMost bound [.ofItem (.expr expr)] = true := by
  simp [bindsAtMost, declarations, Statement.ofItem, Statement.declaredNames, Item.declaredNames]

/-- The throwing pass sustains the bound, node by node. -/
theorem traces_throwingTransformer (bound : Nat) :
    throwingTransformer.Traces (splitsAtMost bound) (bindsAtMost bound) Sustains where
  toCompositional := compositional_sustains
  name token := .pure fun _ => by simp [Expr.outline, Mark.holds]
  expr expr parts _ yields := by
    refine yields.throwing (fun new kept _ => kept) fun new expectation kept found all => ?_
    obtain ⟨_, callee, list, rfl, -, call_eq⟩ := exists_of_throwing?_eq_some found
    have argumentsHold := kept all
    simp only [Expr.outline, holds_append, Bool.and_eq_true, holds_callArguments] at argumentsHold
    exact holds_call? (shallow_bindsAtMost bound) (bindsAtMost_expr bound) argumentsHold.1.2 call_eq
  rebind _ _ yields := yields
  decl _ _ yields := yields
  statement statement parts yields := by
    rw [throwingTransformer_statement]
    refine .after fun _ => .after fun _ => yields.bind fun new kept => ?_
    split
    · rename_i pieces found
      exact .after fun _ => .pure fun all =>
        holds_flattened? (shallow_bindsAtMost bound) (bindsAtMost_expr bound) (kept all) found
    · refine .pure ?_
      rw [outlineOfStatements_singleton]
      exact kept
  list statements := by
    intro state kept all
    simp only [holds_cons, holds_nil, Mark.holds, Bool.and_true, Bool.and_eq_true] at all ⊢
    refine ⟨?_, kept all.2⟩
    -- The lists of handlers are lists of the tree too, so nothing is called `error` in them.
    have undeclared : ∀ list, splitsAtMost bound list = true → declarations errorName list = 0 :=
      fun list splits => by simpa using (Bool.and_eq_true_iff.1 splits).1
    have few : handlersOf statements ≤ bound := by
      simpa using (Bool.and_eq_true_iff.1 all.1).2
    have left := yields_declarations undeclared statements all.2 (undeclared statements all.1) state
    exact decide_eq_true (Nat.le_trans left few)

/-- If nothing in a file is called `error` and every list of statements has at most so many handlers
to be split off, those inside of these handlers included, then after the pass every list binds
`error` at most so many times. With one handler at most, no list binds `error` twice. -/
theorem eachList_throwingPass (bound : Nat) (file : SourceFile)
    (few : file.eachList (splitsAtMost bound) = true) :
    (throwingPass.run file).file.eachList (bindsAtMost bound) = true := by
  have laws := traces_throwingTransformer bound
  have list := laws.yields_group (laws.yields_statements file.statements) {}
  exact compositional_sustains.append list (compositional_sustains.plain [file.endOfFile]) few

theorem eachList_throwingPass_nested :
    (throwingPass.run (.parse
        "func test() { XCTAssertThrowsError(try f()) { e in print(e) } }")).file.eachList
      (bindsAtMost 1) = true :=
  eachList_throwingPass 1 _ (by decide +kernel)

/-- Two assertions with handlers, one after the other. -/
def twoHandlers : SourceFile :=
  .parse ("XCTAssertThrowsError(try f()) { e in print(e) }\n" ++
    "XCTAssertThrowsError(try g()) { e in print(e) }")

/-- Two calls with handlers in one list leave two bindings of `error` there. -/
theorem eachList_throwingPass_twice :
    twoHandlers.eachList (fun list => declarations errorName list == 0) = true ∧
      (throwingPass.run twoHandlers).file.eachList
        (fun list => decide (declarations errorName list ≤ 1)) = false := by
  decide +kernel

end SuiteMigration
