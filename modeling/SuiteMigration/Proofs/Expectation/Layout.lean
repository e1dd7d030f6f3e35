import Mathlib.Tactic.Common
import SuiteMigration.Proofs.Expectation.Conservation
import SuiteMigration.Proofs.Expectation.Refusals
import SuiteMigration.Proofs.Tree.Bodies
import SuiteMigration.Proofs.Tree.Ends

/-!
# Assertions keep the layout

An assertion begins with its name and ends with a parenthesis or a brace, and it hands the trivia
before and behind to what replaces it. So every expression keeps the trivia at its ends, however deep
in it the assertion stands that the first or the last token belongs to.

The migration of assertions moreover keeps the lists of statements. It drops arguments with a label,
and with them the lists in them. All other lists come out again, in the same order and with as many
statements, each with its trivia and its semicolon.

## Main definitions

* `Statement.layout` - the trivia at the ends of a statement, and its semicolon
* `Body.layouts` - the layout of the statements of a body

## Main results

* `keepsEnds_assertionTransformer`, `keepsEnds_throwingTransformer` - the ends of an assertion
* `yieldsLayout_statements` - the lists of statements in a transformed tree
* `layout_kept` - the ends of every expression, and every list of statements
-/

namespace SuiteMigration

/-! ### The ends of an assertion -/

/-- A call starts with its callee. -/
theorem startTrivia_call {callee : Expr} {trivia : Trivia}
    (start : startTrivia callee.tokens = some trivia) (arguments : CallArguments)
    (closure : Option Closure) :
    startTrivia (Expr.call callee arguments closure).tokens = some trivia := by
  simp [Expr.tokens, startTrivia_append, start]

/-- A macro takes over the trivia in front of the name it replaces. -/
theorem startTrivia_callee (replacement : Replacement) (token : Token) :
    startTrivia (replacement.callee (.identifier token)).tokens = some token.leading := by
  cases replacement <;> rfl

/-- Only an identifier has the name of an assertion. -/
theorem exists_token_of_expectation? {old new : Expr} (found : old.expectation? = some new) :
    ∃ rule token list closure, old = .call (.identifier token) list closure ∧
      list.isClosed = true ∧ new = migrateAssertion rule (.identifier token) list closure := by
  obtain ⟨rule, callee, list, closure, rfl, closed, rfl⟩ := exists_of_expectation?_eq_some found
  cases callee with
  | identifier token => exact ⟨rule, token, list, closure, rfl, closed, rfl⟩
  | _ => cases found

/-- An expectation has the margins of its assertion. -/
theorem sameEnds_of_expectation? {old new : Expr} (found : old.expectation? = some new) :
    SameEnds old.tokens new.tokens := by
  obtain ⟨rule, token, list, closure, rfl, closed, rfl⟩ := exists_token_of_expectation? found
  exact ⟨startTrivia_call (startTrivia_callee rule.replacement token) _ _,
    (alike_migrateAssertion rule _ closed closure).ending⟩

/-- An expectation that throws has the margins of its assertion. -/
theorem sameEnds_of_throwing? {old new : Expr} (found : old.throwing? = some new) :
    SameEnds old.tokens new.tokens := by
  rw [Expr.throwing?_eq] at found
  split at found
  · rename_i callee list
    obtain ⟨expectation, expected, made⟩ := Option.bind_eq_some_iff.1 found
    obtain ⟨token, rfl⟩ := exists_token_of_throwExpectation? expected
    refine ⟨?_, (alike_call? (isClosed_of_throwExpectation? expected) made).ending⟩
    obtain ⟨body, messages, newList, -, -, -, rfl⟩ := ThrowExpectation.exists_of_call?_eq_some made
    rfl
  · cases found

theorem keepsEnds_assertionTransformer : assertionTransformer.KeepsEnds where
  expr old parts same := by
    refine same.bind fun rebuilt kept => ?_
    cases found : rebuilt.expectation? with
    | none => exact .pure kept
    | some expectation => exact .after fun _ => .pure (kept.trans (sameEnds_of_expectation? found))
  closure _ _ same := same

theorem keepsEnds_throwingTransformer : throwingTransformer.KeepsEnds where
  expr old parts same := by
    rw [throwingTransformer_expr]
    refine same.bind fun rebuilt kept => ?_
    cases found : rebuilt.throwing? with
    | none => exact .pure kept
    | some expectation => exact .after fun _ => .pure (kept.trans (sameEnds_of_throwing? found))
  closure _ _ same := same

/-! ### The layout of a list of statements -/

/-- The trivia at the ends of a statement, and its semicolon. -/
def Statement.layout (statement : Statement) : Trivia × Trivia × Option Token :=
  (Node.leading statement, Node.trailing statement, statement.semicolon)

/-- The layout of the statements of a body. -/
def Body.layouts (body : Body) : List (Trivia × Trivia × Option Token) :=
  body.statements.map Statement.layout

/-- Each part of a tree keeps its margins. -/
theorem Part.sameEnds_migratedTokens (part : Part) : SameEnds part.tokens part.migratedTokens := by
  cases part with
  | token only => exact .refl _
  | expr call => exact keepsEnds_assertionTransformer.yields_expr call 0
  | closure closure => exact .refl _

/-- A statement keeps its layout. -/
theorem yieldsLayout_statement (statement : Statement) :
    Yields (statement.transform assertionTransformer) fun new => new.layout = statement.layout := by
  intro count
  have semicolon : (statement.transform assertionTransformer count).1.semicolon =
      statement.semicolon := by
    cases statement
    rfl
  have same : SameEnds statement.tokens
      (statement.transform assertionTransformer count).1.tokens := by
    have parts := (reworks_assertionTransformer.settles_statement 0 statement).holds count
    rw [← Statement.tokens_cut {} (statement.transform assertionTransformer count).1,
      parts.parts, tokens_reworked, ← statement.tokens_cut assertionCalls]
    exact .flatMap fun part _ => part.sameEnds_migratedTokens
  exact Prod.ext same.leading_eq (Prod.ext same.trailing_eq semicolon)

/-- The statements of a list keep their number and their layouts. -/
theorem yieldsLayout_statements (statements : List Statement) :
    Yields (transformStatements assertionTransformer statements) fun new =>
      new.map Statement.layout = statements.map Statement.layout := by
  induction statements with
  | nil => exact .pure rfl
  | cons statement later ih =>
    have alone : Yields (do return [← statement.transform assertionTransformer]) fun new =>
        new.map Statement.layout = [statement.layout] :=
      (yieldsLayout_statement statement).bind fun _ same => .pure (congrArg ([·]) same)
    refine alone.bind fun new same => ih.bind fun newLater laterSame => .pure ?_
    rw [List.map_append, same, laterSame]
    rfl

/-! ### The lists in an assertion -/

/-- Parentheses hold no statements of their own. -/
theorem Expr.lists_parenthesized (expr : Expr) : expr.parenthesized.lists = expr.lists := by
  have inner : expr.parenthesized.lists =
      (Node.setTrailing (Node.setLeading expr "") "").lists :=
    congrArg (List.map Body.statements) (List.append_nil _)
  rw [inner, Expr.lists_setTrailing, Expr.lists_setLeading]

theorem Expr.lists_ite_parenthesized (expr : Expr) (wraps : Bool) :
    (if wraps then expr.parenthesized else expr).lists = expr.lists := by
  cases wraps with
  | true => exact expr.lists_parenthesized
  | false => rfl

/-- A comparison holds the lists of both operands. -/
theorem lists_combined (left right : Expr) (operator : String) :
    (combined left operator right).lists = left.lists ++ right.lists := by
  have parts (first second : Expr) (operator : Token) :
      (Expr.sequence [first, second] [operator]).lists = first.lists ++ second.lists := by
    simp [Expr.lists, Expr.bodies, bodiesOfOperands]
  rw [combined, parts, Expr.lists_setTrailing, Expr.lists_setLeading, Expr.lists_ite_parenthesized,
    Expr.lists_ite_parenthesized]

theorem lists_negated (operand : Expr) : (negated operand).lists = operand.lists := by
  have inner (operator : Token) (operand : Expr) :
      (Expr.prefixed operator operand).lists = operand.lists := rfl
  rw [negated, inner, Expr.lists_setLeading, Expr.lists_ite_parenthesized]

/-- The lists of statements in the values of some arguments. -/
def listsOfArguments (arguments : List Argument) : List (List Statement) :=
  (arguments.map fun argument => argument.value.lists).flatten

/-- The bodies in some arguments are the lists in them. -/
theorem statements_bodiesOfArguments (arguments : List Argument) :
    (bodiesOfArguments skipNothing false arguments).map Body.statements =
      listsOfArguments arguments := by
  induction arguments with
  | nil => rfl
  | cons argument later ih =>
    obtain ⟨label, value, comma⟩ := argument
    simpa [bodiesOfArguments, listsOfArguments, Expr.lists] using ih

theorem statements_bodiesOfArguments_unlabeled (arguments : List Argument) :
    (bodiesOfArguments skipNothing true arguments).map Body.statements =
      listsOfArguments (positional arguments) := by
  induction arguments with
  | nil => rfl
  | cons argument later ih =>
    obtain ⟨_ | label, value, comma⟩ := argument <;>
      simpa [bodiesOfArguments, positional, listsOfArguments, Expr.lists] using ih

/-- A condition holds the lists of the arguments it is made of. -/
theorem lists_apply (synthesis : Synthesis) (arguments : List Argument) :
    listsOfArguments (synthesis.apply arguments) = listsOfArguments arguments := by
  match synthesis, arguments with
  | .none, arguments => rfl
  | .negate, first :: later =>
    exact congrArg (· ++ listsOfArguments later) (lists_negated first.value)
  | .nilCheck operator, first :: later =>
    refine congrArg (· ++ listsOfArguments later) ((lists_combined ..).trans ?_)
    exact List.append_nil _
  | .compare operator, left :: right :: later =>
    refine (congrArg (· ++ listsOfArguments later) (lists_combined ..)).trans ?_
    exact List.append_assoc ..
  | .negate, [] | .nilCheck operator, [] | .compare operator, [] | .compare operator, [only] => rfl

theorem lists_stripComma (arguments : List Argument) :
    listsOfArguments (stripComma arguments) = listsOfArguments arguments := by
  have same (argument : Argument) : argument.withoutComma.value.lists = argument.value.lists := by
    unfold Argument.withoutComma
    split
    · rfl
    · show (if _ then _ else _ : Expr).lists = _
      split
      · exact Expr.lists_setTrailing ..
      · rfl
  exact congrArg List.flatten (map_modifyLast same arguments)

/-- What replaces an assertion has the lists of its arguments without a label. -/
theorem lists_migrateAssertion (rule : AssertionRule) (callee : Expr) (list : CallArguments)
    (closure : Option Closure) :
    (migrateAssertion rule callee list closure).lists =
      (bodiesOfArguments skipNothing true list.arguments ++
        bodiesOfClosure? skipNothing closure).map Body.statements := by
  have named : (rule.replacement.callee callee).bodies skipNothing = [] := by
    cases rule.replacement <;> rfl
  have arguments : (bodiesOfArguments skipNothing false
      (stripComma (rule.synthesis.apply (positional list.arguments)))).map Body.statements =
        (bodiesOfArguments skipNothing true list.arguments).map Body.statements := by
    rw [statements_bodiesOfArguments, lists_stripComma, lists_apply,
      statements_bodiesOfArguments_unlabeled]
  rw [List.map_append, ← arguments, ← List.map_append]
  unfold migrateAssertion Expr.lists
  rw [Expr.bodies, named]
  rfl

/-! ### The lists in a tree -/

/-- The second bodies have as many lists as the first, and each keeps its layout. -/
def SameLayouts (old new : List Body) : Prop :=
  new.map Body.layouts = old.map Body.layouts

theorem SameLayouts.refl (bodies : List Body) : SameLayouts bodies bodies :=
  rfl

theorem SameLayouts.trans {old middle new : List Body} (first : SameLayouts old middle)
    (second : SameLayouts middle new) : SameLayouts old new :=
  Eq.trans second first

/-- Layouts are the same in a row. -/
theorem SameLayouts.append {old new later newLater : List Body} (same : SameLayouts old new)
    (laterSame : SameLayouts later newLater) : SameLayouts (old ++ later) (new ++ newLater) := by
  unfold SameLayouts at *
  rw [List.map_append, List.map_append, same, laterSame]

theorem SameLayouts.cons {old new : List Body} {body newBody : Body}
    (first : newBody.layouts = body.layouts) (same : SameLayouts old new) :
    SameLayouts (body :: old) (newBody :: new) :=
  congrArg₂ List.cons first same

/-- The same lists have the same layouts. -/
theorem SameLayouts.of_statements {old new : List Body}
    (same : new.map Body.statements = old.map Body.statements) : SameLayouts old new := by
  have layouts (bodies : List Body) : bodies.map Body.layouts =
      (bodies.map Body.statements).map fun statements => statements.map Statement.layout :=
    List.map_map.symm
  rw [SameLayouts, layouts, layouts, same]

/-- The parts of a call are rebuilt, and the call then becomes an expectation or stays. The flag of
its arguments is the same before and after, because its name and its parentheses are kept. -/
theorem SameLayouts.call {callee newCallee : Expr} {list newList : CallArguments}
    {closure newClosure : Option Closure} (named : newCallee.name? = callee.name?)
    (closed : newList.isClosed = list.isClosed)
    (calleeSame : SameLayouts (callee.bodies assertionCalls.expr) (newCallee.bodies skipNothing))
    (listSame : ∀ unlabeled, SameLayouts (list.bodies assertionCalls.expr unlabeled)
      (newList.bodies skipNothing unlabeled))
    (closureSame : SameLayouts (bodiesOfClosure? assertionCalls.expr closure)
      (bodiesOfClosure? skipNothing newClosure)) :
    let new := Expr.call newCallee newList newClosure
    SameLayouts ((Expr.call callee list closure).bodies assertionCalls.expr)
      ((new.expectation?.getD new).bodies skipNothing) := by
  intro new
  have flag : assertionCalls.expr (.call callee list closure) = new.expectation?.isSome := by
    show _ = assertionCalls.expr new
    rw [assertionCalls_expr, assertionCalls_expr]
    simp only [new, Expr.head, named, closed]
  have rebuilt := fun unlabeled => (calleeSame.append (listSame unlabeled)).append closureSame
  rw [Expr.bodies, flag]
  cases found : new.expectation? with
  | none => exact rebuilt false
  | some expectation =>
    obtain ⟨rule, token, _, _, isCall, -, rfl⟩ := exists_token_of_expectation? found
    obtain ⟨rfl, rfl, rfl⟩ := Expr.call.inj isCall
    refine (rebuilt true).trans (.of_statements ?_)
    have migrated := lists_migrateAssertion rule (.identifier token) newList newClosure
    cases newList
    exact migrated

/-- An expression comes out as it is after its parts, or as the expectation that it has become. -/
theorem Yields.settled {post : Expr → Prop} {old : Expr} {parts : StateM Nat Expr}
    (yields : Yields parts fun new => post (new.expectation?.getD new)) :
    Yields (assertionTransformer.expr old parts) post := by
  intro count
  rw [assertionTransformer_expr]
  exact yields count

/-- A callee that is migrated keeps its name. -/
theorem yieldsName_expr (expr : Expr) :
    Yields (expr.transform assertionTransformer) fun new => new.name? = expr.name? := by
  intro count
  have named := ((reworks_assertionTransformer.settles_expr 0 expr).holds count).1
  rwa [Option.map_id] at named

-- The induction follows the transformer. The bodies of a node are put together from those of its
-- parts in the same way before and after.
mutual

/-- The lists in an expression keep their layouts. -/
theorem yieldsLayouts_expr (expr : Expr) :
    Yields (expr.transform assertionTransformer) fun new =>
      SameLayouts (expr.bodies assertionCalls.expr) (new.bodies skipNothing) := by
  rw [Expr.transform.eq_def]
  match expr with
  | .identifier token | .literal token | .raw tokens => exact .settled (.pure (.refl []))
  | .member base period name =>
    exact .settled ((yieldsLayouts_expr? base).bind fun _ same => .pure same)
  | .call callee list closure =>
    exact .settled (((yieldsName_expr callee).and (yieldsLayouts_expr callee)).bind
      fun _ calleeSame => (yieldsLayouts_callArguments list).bind fun _ listSame =>
      (yieldsLayouts_closure? closure).bind fun _ closureSame =>
      .pure (.call calleeSame.1 listSame.1 calleeSame.2 listSame.2 closureSame))
  | .index base arguments =>
    exact .settled ((yieldsLayouts_expr base).bind fun _ baseSame =>
      (yieldsLayouts_argumentList arguments).bind fun _ argumentsSame =>
      .pure (baseSame.append argumentsSame))
  | .sequence operands operators =>
    exact .settled ((yieldsLayouts_operands operands).bind fun _ same => .pure same)
  | .prefixed operator operand =>
    exact .settled ((yieldsLayouts_expr operand).bind fun _ same => .pure same)
  | .suffixed operand operator =>
    exact .settled ((yieldsLayouts_expr operand).bind fun _ same => .pure same)
  | .trying keyword mark operand =>
    exact .settled ((yieldsLayouts_expr operand).bind fun _ same => .pure same)
  | .awaiting keyword operand =>
    exact .settled ((yieldsLayouts_expr operand).bind fun _ same => .pure same)
  | .tuple elements =>
    exact .settled ((yieldsLayouts_argumentList elements).bind fun _ same => .pure same)
  | .collection left elements right =>
    exact .settled ((yieldsLayouts_elements elements).bind fun _ same => .pure same)
  | .closure closure =>
    exact .settled ((yieldsLayouts_closure closure).bind fun _ same => .pure same)
  | .specialized base arguments =>
    exact .settled ((yieldsLayouts_expr base).bind fun _ same => .pure same)

theorem yieldsLayouts_expr? (expr : Option Expr) :
    Yields (transformExpr? assertionTransformer expr) fun new =>
      SameLayouts (bodiesOfExpr? assertionCalls.expr expr) (bodiesOfExpr? skipNothing new) := by
  match expr with
  | none => exact .pure (.refl [])
  | some expr => exact (yieldsLayouts_expr expr).bind fun _ same => .pure same

theorem yieldsLayouts_argumentList (list : ArgumentList) :
    Yields (list.transform assertionTransformer) fun new =>
      SameLayouts (list.bodies assertionCalls.expr false) (new.bodies skipNothing false) := by
  match list with
  | ⟨opener, arguments, closer⟩ =>
    exact (yieldsLayouts_arguments arguments).bind fun _ same => .pure (same false)

theorem yieldsLayouts_callArguments (list : CallArguments) :
    Yields (list.transform assertionTransformer) fun new => new.isClosed = list.isClosed ∧
      ∀ unlabeled, SameLayouts (list.bodies assertionCalls.expr unlabeled)
        (new.bodies skipNothing unlabeled) := by
  match list with
  | ⟨left, arguments, right⟩ =>
    exact (yieldsLayouts_arguments arguments).bind fun _ same => .pure ⟨rfl, same⟩

theorem yieldsLayouts_arguments (arguments : List Argument) :
    Yields (transformArguments assertionTransformer arguments) fun new => ∀ unlabeled,
      SameLayouts (bodiesOfArguments assertionCalls.expr unlabeled arguments)
        (bodiesOfArguments skipNothing unlabeled new) := by
  match arguments with
  | [] => exact .pure fun _ => .refl []
  | ⟨label, value, comma⟩ :: later =>
    refine (yieldsLayouts_expr value).bind fun _ valueSame =>
      (yieldsLayouts_arguments later).bind fun _ laterSame => .pure fun unlabeled => ?_
    refine SameLayouts.append ?_ (laterSame unlabeled)
    cases unlabeled && label.isSome with
    | true => exact .refl []
    | false => exact valueSame

theorem yieldsLayouts_operands (operands : List Expr) :
    Yields (transformOperands assertionTransformer operands) fun new =>
      SameLayouts (bodiesOfOperands assertionCalls.expr operands)
        (bodiesOfOperands skipNothing new) := by
  match operands with
  | [] => exact .pure (.refl [])
  | operand :: later =>
    exact (yieldsLayouts_expr operand).bind fun _ same =>
      (yieldsLayouts_operands later).bind fun _ laterSame => .pure (same.append laterSame)

theorem yieldsLayouts_elements (elements : List CollectionElement) :
    Yields (transformElements assertionTransformer elements) fun new =>
      SameLayouts (bodiesOfElements assertionCalls.expr elements)
        (bodiesOfElements skipNothing new) := by
  match elements with
  | [] => exact .pure (.refl [])
  | .value value comma :: later =>
    exact (yieldsLayouts_expr value).bind fun _ same =>
      (yieldsLayouts_elements later).bind fun _ laterSame => .pure (same.append laterSame)
  | .entry key colon value comma :: later =>
    exact (yieldsLayouts_expr key).bind fun _ keySame =>
      (yieldsLayouts_expr value).bind fun _ same =>
      (yieldsLayouts_elements later).bind fun _ laterSame =>
      .pure ((keySame.append same).append laterSame)

theorem yieldsLayouts_closure (closure : Closure) :
    Yields (closure.transform assertionTransformer) fun new =>
      SameLayouts (closure.bodies assertionCalls.expr) (new.bodies skipNothing) := by
  match closure with
  | ⟨left, signature, statements, right⟩ =>
    have layouts := yieldsLayout_statements statements
    exact (layouts.and (yieldsLayouts_statements statements)).bind fun _ same =>
      .pure (.cons same.1 same.2)

theorem yieldsLayouts_closure? (closure : Option Closure) :
    Yields (transformClosure? assertionTransformer closure) fun new =>
      SameLayouts (bodiesOfClosure? assertionCalls.expr closure)
        (bodiesOfClosure? skipNothing new) := by
  match closure with
  | none => exact .pure (.refl [])
  | some closure => exact (yieldsLayouts_closure closure).bind fun _ same => .pure same

theorem yieldsLayouts_statement (statement : Statement) :
    Yields (statement.transform assertionTransformer) fun new =>
      SameLayouts (statement.bodies assertionCalls.expr) (new.bodies skipNothing) := by
  match statement with
  | ⟨item, semicolon⟩ => exact (yieldsLayouts_item item).bind fun _ same => .pure same

/-- The lists in some statements keep their layouts. -/
theorem yieldsLayouts_statements (statements : List Statement) :
    Yields (transformStatements assertionTransformer statements) fun new =>
      SameLayouts (bodiesOfStatements assertionCalls.expr statements)
        (bodiesOfStatements skipNothing new) := by
  match statements with
  | [] => exact .pure (.refl [])
  | statement :: later =>
    have alone : Yields (do return [← statement.transform assertionTransformer]) fun new =>
        ∃ only, new = [only] ∧
          SameLayouts (statement.bodies assertionCalls.expr) (only.bodies skipNothing) :=
      (yieldsLayouts_statement statement).bind fun only same => .pure ⟨only, rfl, same⟩
    refine alone.bind fun new newSame => (yieldsLayouts_statements later).bind fun _ laterSame => ?_
    obtain ⟨only, rfl, same⟩ := newSame
    exact .pure (same.append laterSame)

theorem yieldsLayouts_item (item : Item) :
    Yields (item.transform assertionTransformer) fun new =>
      SameLayouts (item.bodies assertionCalls.expr) (new.bodies skipNothing) := by
  match item with
  | .expr expr => exact (yieldsLayouts_expr expr).bind fun _ same => .pure same
  | .decl decl => exact (yieldsLayouts_decl decl).bind fun _ same => .pure same
  | .returning keyword value =>
    exact (yieldsLayouts_expr? value).bind fun _ same => .pure same
  | .throwing keyword value => exact (yieldsLayouts_expr value).bind fun _ same => .pure same
  | .conditional statement =>
    exact (yieldsLayouts_ifStatement statement).bind fun _ same => .pure same
  | .guarding keyword conditions elseKeyword body =>
    exact (yieldsLayouts_conditions conditions).bind fun _ conditionsSame =>
      (yieldsLayouts_block body).bind fun _ bodySame => .pure (conditionsSame.append bodySame)
  | .forIn keyword modifiers pattern type inKeyword sequence filter body =>
    exact (yieldsLayouts_expr sequence).bind fun _ sequenceSame => .after fun _ =>
      (yieldsLayouts_clause? filter).bind fun _ filterSame =>
      (yieldsLayouts_block body).bind fun _ bodySame => .after fun _ =>
      .pure ((sequenceSame.append filterSame).append bodySame)
  | .whileLoop keyword conditions body =>
    exact .after fun _ => (yieldsLayouts_conditions conditions).bind fun _ conditionsSame =>
      (yieldsLayouts_block body).bind fun _ bodySame => .after fun _ =>
      .pure (conditionsSame.append bodySame)
  | .repeatLoop keyword body whileKeyword condition =>
    exact (yieldsLayouts_block body).bind fun _ bodySame =>
      (yieldsLayouts_expr condition).bind fun _ same => .pure (bodySame.append same)
  | .doCatch keyword throwsClause body catches =>
    exact (yieldsLayouts_block body).bind fun _ bodySame =>
      (yieldsLayouts_catches catches).bind fun _ same => .pure (bodySame.append same)
  | .switching keyword subject left cases right =>
    exact (yieldsLayouts_expr subject).bind fun _ subjectSame =>
      (yieldsLayouts_cases cases).bind fun _ same => .pure (subjectSame.append same)
  | .deferring keyword body => exact (yieldsLayouts_block body).bind fun _ same => .pure same
  | .raw tokens => exact .pure (.refl [])

theorem yieldsLayouts_block (block : CodeBlock) :
    Yields (block.transform assertionTransformer) fun new =>
      SameLayouts (block.bodies assertionCalls.expr) (new.bodies skipNothing) := by
  match block with
  | ⟨left, statements, right⟩ =>
    have layouts := yieldsLayout_statements statements
    exact .after fun _ => (layouts.and (yieldsLayouts_statements statements)).bind fun _ same =>
      .after fun _ => .pure (.cons same.1 same.2)

theorem yieldsLayouts_block? (block : Option CodeBlock) :
    Yields (transformBlock? assertionTransformer block) fun new =>
      SameLayouts (bodiesOfBlock? assertionCalls.expr block) (bodiesOfBlock? skipNothing new) := by
  match block with
  | none => exact .pure (.refl [])
  | some block => exact (yieldsLayouts_block block).bind fun _ same => .pure same

theorem yieldsLayouts_ifStatement (statement : IfStatement) :
    Yields (statement.transform assertionTransformer) fun new =>
      SameLayouts (statement.bodies assertionCalls.expr) (new.bodies skipNothing) := by
  match statement with
  | ⟨keyword, conditions, body, alternative⟩ =>
    exact .after fun _ => (yieldsLayouts_conditions conditions).bind fun _ conditionsSame =>
      (yieldsLayouts_block body).bind fun _ bodySame => .after fun _ =>
      (yieldsLayouts_elseClause alternative).bind fun _ same =>
      .pure ((conditionsSame.append bodySame).append same)

theorem yieldsLayouts_elseClause (alternative : ElseClause) :
    Yields (alternative.transform assertionTransformer) fun new =>
      SameLayouts (alternative.bodies assertionCalls.expr) (new.bodies skipNothing) := by
  match alternative with
  | .absent => exact .pure (.refl [])
  | .block keyword body => exact (yieldsLayouts_block body).bind fun _ same => .pure same
  | .chained keyword next => exact (yieldsLayouts_ifStatement next).bind fun _ same => .pure same

theorem yieldsLayouts_conditions (conditions : List Condition) :
    Yields (transformConditions assertionTransformer conditions) fun new =>
      SameLayouts (bodiesOfConditions assertionCalls.expr conditions)
        (bodiesOfConditions skipNothing new) := by
  match conditions with
  | [] => exact .pure (.refl [])
  | .expr expr comma :: later =>
    exact (yieldsLayouts_expr expr).bind fun _ same =>
      (yieldsLayouts_conditions later).bind fun _ laterSame => .pure (same.append laterSame)
  | .binding specifier pattern type initializer comma :: later =>
    exact (yieldsLayouts_clause? initializer).bind fun _ same => .after fun _ =>
      (yieldsLayouts_conditions later).bind fun _ laterSame => .pure (same.append laterSame)

theorem yieldsLayouts_clause (clause : Clause) :
    Yields (clause.transform assertionTransformer) fun new =>
      SameLayouts (clause.bodies assertionCalls.expr) (new.bodies skipNothing) := by
  match clause with
  | ⟨mark, value⟩ => exact (yieldsLayouts_expr value).bind fun _ same => .pure same

theorem yieldsLayouts_clause? (clause : Option Clause) :
    Yields (transformClause? assertionTransformer clause) fun new =>
      SameLayouts (bodiesOfClause? assertionCalls.expr clause)
        (bodiesOfClause? skipNothing new) := by
  match clause with
  | none => exact .pure (.refl [])
  | some clause => exact (yieldsLayouts_clause clause).bind fun _ same => .pure same

theorem yieldsLayouts_catches (catches : List CatchClause) :
    Yields (transformCatches assertionTransformer catches) fun new =>
      SameLayouts (bodiesOfCatches assertionCalls.expr catches)
        (bodiesOfCatches skipNothing new) := by
  match catches with
  | [] => exact .pure (.refl [])
  | ⟨keyword, pattern, body⟩ :: later =>
    exact .after fun _ => (yieldsLayouts_block body).bind fun _ same => .after fun _ =>
      (yieldsLayouts_catches later).bind fun _ laterSame => .pure (same.append laterSame)

theorem yieldsLayouts_cases (cases : List SwitchCase) :
    Yields (transformCases assertionTransformer cases) fun new =>
      SameLayouts (bodiesOfCases assertionCalls.expr cases) (bodiesOfCases skipNothing new) := by
  match cases with
  | [] => exact .pure (.refl [])
  | ⟨label, statements⟩ :: later =>
    have layouts := yieldsLayout_statements statements
    exact (layouts.and (yieldsLayouts_statements statements)).bind fun _ same =>
      (yieldsLayouts_cases later).bind fun _ laterSame =>
      .pure (SameLayouts.append (.cons same.1 same.2) laterSame)

theorem yieldsLayouts_decl (decl : Decl) :
    Yields (decl.transform assertionTransformer) fun new =>
      SameLayouts (decl.bodies assertionCalls.expr) (new.bodies skipNothing) := by
  match decl with
  | .importing decl | .raw decl => exact .pure (.refl [])
  | .type header members => exact (yieldsLayouts_block members).bind fun _ same => .pure same
  | .function header body | .initializer header body | .finalizer header body =>
    exact (yieldsLayouts_block? body).bind fun _ same => .pure same
  | .variable header bindings =>
    exact (yieldsLayouts_bindings bindings).bind fun _ same => .pure same

theorem yieldsLayouts_bindings (bindings : List PatternBinding) :
    Yields (transformBindings assertionTransformer bindings) fun new =>
      SameLayouts (bodiesOfBindings assertionCalls.expr bindings)
        (bodiesOfBindings skipNothing new) := by
  match bindings with
  | [] => exact .pure (.refl [])
  | ⟨pattern, type, initializer, accessor, comma⟩ :: later =>
    exact (yieldsLayouts_clause? initializer).bind fun _ initializerSame =>
      (yieldsLayouts_block? accessor).bind fun _ accessorSame =>
      (yieldsLayouts_bindings later).bind fun _ laterSame =>
      .pure ((initializerSame.append accessorSame).append laterSame)

end

/-- Rewriting keeps the layout. An expression has the same trivia at its ends after the migration of
assertions and after that of assertions about errors. The migration of assertions moreover keeps
every list of statements with the trivia and the semicolon of each statement: a list that is
given to it, and all lists of a file but those in the labelled arguments of assertions. -/
theorem layout_kept :
    (∀ (expr : Expr) (count : Nat),
      let new := (expr.transform assertionTransformer count).1
      Node.leading new = Node.leading expr ∧ Node.trailing new = Node.trailing expr) ∧
    (∀ (expr : Expr) (state : ThrowingState),
      let new := (expr.transform throwingTransformer state).1
      Node.leading new = Node.leading expr ∧ Node.trailing new = Node.trailing expr) ∧
    (∀ (statements : List Statement) (count : Nat),
      (transformStatements assertionTransformer statements count).1.map Statement.layout =
        statements.map Statement.layout) ∧
    ∀ file : SourceFile,
      let new := (assertionPass.run file).file
      new.statements.map Statement.layout = file.statements.map Statement.layout ∧
      (new.bodies skipNothing).map Body.layouts =
        (file.bodies fun expr => expr.expectation?.isSome).map Body.layouts := by
  refine ⟨fun expr count => ?_, fun expr state => ?_, yieldsLayout_statements, fun file => ⟨?_, ?_⟩⟩
  · have same := keepsEnds_assertionTransformer.yields_expr expr count
    exact ⟨same.leading_eq, same.trailing_eq⟩
  · have same := keepsEnds_throwingTransformer.yields_expr expr state
    exact ⟨same.leading_eq, same.trailing_eq⟩
  · exact yieldsLayout_statements file.statements 0
  · exact yieldsLayouts_statements file.statements 0

end SuiteMigration
