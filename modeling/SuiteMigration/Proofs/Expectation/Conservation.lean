import Mathlib.Data.List.Basic
import Mathlib.Tactic.Common
import SuiteMigration.Proofs.Expectation.Throwing
import SuiteMigration.Proofs.Tree.Reworking

/-!
# Assertions keep their arguments

An assertion is migrated by building a condition from its arguments. The arguments without a label
stay in order, and the texts of their values stay too: all that is added is an operator, `nil`, a
negation, and parentheses around a whole operand. In a tree, the pass changes nothing outside of the
assertions: cut at the outermost of them, the new tree is the old one with each of them migrated,
and the same holds of the values of their arguments, where further assertions may stand.

## Main definitions

* `Synthesis.texts` - the texts of a condition and of the arguments behind it
* `assertionCalls` - the places of assertions in a tree
* `Expr.migrated`, `Part.migratedTokens` - an expression after the pass, and the tokens of a part
* `KeepsArguments`, `MigratesOnly` - what the pass makes of an assertion, and of a tree

## Main results

* `valueTexts_apply` - the texts of the values after a condition is built from them
* `reworks_assertionTransformer` - the pass works at the assertions only
* `assertions_conserved` - no code is lost or duplicated
-/

namespace SuiteMigration

/-! ### Conditions -/

/-- The texts of the tokens of an expression. -/
def Expr.texts (expr : Expr) : List String :=
  expr.tokens.map Token.text

/-- The texts of an expression, in parentheses if asked for. -/
def Expr.wrappedTexts (expr : Expr) (wraps : Bool) : List String :=
  if wraps then "(" :: expr.texts ++ [")"] else expr.texts

/-- Trivia is no part of the texts. -/
theorem Expr.texts_setLeading (expr : Expr) (trivia : Trivia) :
    (Node.setLeading expr trivia).texts = expr.texts := by
  show (Node.tokens (Node.setLeading expr trivia)).map Token.text = expr.tokens.map Token.text
  rw [Node.tokens_setLeading]
  show (modifyFirst _ expr.tokens).map Token.text = _
  cases expr.tokens <;> rfl

theorem Expr.texts_setTrailing (expr : Expr) (trivia : Trivia) :
    (Node.setTrailing expr trivia).texts = expr.texts := by
  show (Node.tokens (Node.setTrailing expr trivia)).map Token.text = expr.tokens.map Token.text
  rw [Node.tokens_setTrailing]
  exact map_modifyLast (fun token : Token => (rfl : (token.withTrailing trivia).text = token.text))
    expr.tokens

/-- The parentheses stand around the expression, which leaves them the trivia at its ends. -/
theorem Expr.tokens_parenthesized (expr : Expr) :
    expr.parenthesized.tokens =
      (Token.ofPunctuation '(').withLeading (Node.leading expr) ::
        (Node.setTrailing (Node.setLeading expr "") "").tokens ++
        [(Token.ofPunctuation ')').withTrailing (Node.trailing expr)] := by
  simp [Expr.parenthesized, Expr.tokens, ArgumentList.tokens, tokensOfArguments, Argument.tokens,
    Argument.ofValue, Node.tokens]

/-- Parentheses add two texts. -/
theorem Expr.texts_parenthesized (expr : Expr) :
    expr.parenthesized.texts = "(" :: expr.texts ++ [")"] := by
  have inner := (Expr.texts_setTrailing (Node.setLeading expr "") "").trans
    (Expr.texts_setLeading expr "")
  rw [Expr.texts, Expr.tokens_parenthesized, List.map_append, List.map_cons]
  exact congrArg (fun texts => "(" :: texts ++ [")"]) inner

theorem Expr.texts_ite_parenthesized (expr : Expr) (wraps : Bool) :
    (if wraps then expr.parenthesized else expr).texts = expr.wrappedTexts wraps := by
  cases wraps with
  | true => exact expr.texts_parenthesized
  | false => rfl

/-- A comparison has the texts of its operands, with the operator between them and parentheses where
they are needed. -/
theorem texts_combined (left right : Expr) (operator : String) :
    (combined left operator right).texts =
      left.wrappedTexts left.bindsLoosely ++ operator ::
        right.wrappedTexts (right.bindsLoosely || right.isMarked) := by
  rw [← Expr.texts_ite_parenthesized, ← Expr.texts_ite_parenthesized,
    ← Expr.texts_setTrailing (if left.bindsLoosely then _ else _) "",
    ← Expr.texts_setLeading (if right.bindsLoosely || right.isMarked then _ else _) ""]
  simp [combined, Expr.texts, Expr.tokens, tokensOfOperands, Node.tokens, Token.ofOperator,
    Token.withLeading, Token.withTrailing]

/-- A negation has a sign in front, and parentheses where they are needed. -/
theorem texts_negated (operand : Expr) :
    (negated operand).texts = "!" :: operand.wrappedTexts operand.needsParens := by
  rw [← Expr.texts_ite_parenthesized,
    ← Expr.texts_setLeading (if operand.needsParens then _ else _) ""]
  simp [negated, Expr.texts, Expr.tokens, Token.ofOperator, Token.withLeading]

/-! ### Arguments -/

/-- The texts of the values of arguments. -/
def valueTexts (arguments : List Argument) : List String :=
  (arguments.map fun argument => argument.value.texts).flatten

/-- The texts of the values of arguments after the condition is built from the first of them. What
is added is one operator, `nil`, a negation, and parentheses around an operand. Too few values are
left as they are. -/
def Synthesis.texts : Synthesis → List Expr → List String
  | .negate, first :: later =>
    "!" :: first.wrappedTexts first.needsParens ++ (later.map Expr.texts).flatten
  | .compare operator, left :: right :: later =>
    left.wrappedTexts left.bindsLoosely ++
      operator :: right.wrappedTexts (right.bindsLoosely || right.isMarked) ++
        (later.map Expr.texts).flatten
  | .nilCheck operator, first :: later =>
    first.wrappedTexts first.bindsLoosely ++ [operator, "nil"] ++ (later.map Expr.texts).flatten
  | _, values => (values.map Expr.texts).flatten

theorem Argument.texts_withoutComma (argument : Argument) :
    argument.withoutComma.value.texts = argument.value.texts := by
  unfold Argument.withoutComma
  split
  · rfl
  · simp only
    split
    · exact Expr.texts_setTrailing ..
    · rfl

/-- The last comma is no part of a value. -/
theorem valueTexts_stripComma (arguments : List Argument) :
    valueTexts (stripComma arguments) = valueTexts arguments :=
  congrArg List.flatten (map_modifyLast Argument.texts_withoutComma arguments)

/-- A condition has the texts that its synthesis lists. -/
theorem valueTexts_apply (synthesis : Synthesis) (arguments : List Argument) :
    valueTexts (synthesis.apply arguments) =
      synthesis.texts (arguments.map Argument.value) := by
  match synthesis, arguments with
  | .negate, first :: later =>
    simp [valueTexts, Synthesis.apply, Synthesis.texts, texts_negated, Function.comp_def]
  | .compare operator, left :: right :: later =>
    simp [valueTexts, Synthesis.apply, Synthesis.texts, texts_combined, Function.comp_def]
  | .nilCheck operator, first :: later =>
    have nil : (Expr.literal (.ofName "nil")).wrappedTexts
        ((Expr.literal (.ofName "nil")).bindsLoosely || (Expr.literal (.ofName "nil")).isMarked) =
        ["nil"] := by decide
    simp [valueTexts, Synthesis.apply, Synthesis.texts, texts_combined, nil, Function.comp_def]
  | .none, arguments => simp [valueTexts, Synthesis.apply, Synthesis.texts, Function.comp_def]
  | .negate, [] => rfl
  | .compare operator, [] => rfl
  | .compare operator, [only] => simp [valueTexts, Synthesis.apply, Synthesis.texts]
  | .nilCheck operator, [] => rfl

/-- How many values the condition is built from. -/
def Synthesis.arity : Synthesis → Nat
  | .none => 0
  | .negate | .nilCheck _ => 1
  | .compare _ => 2

/-- With too few values a synthesis adds nothing. -/
theorem Synthesis.texts_of_short {synthesis : Synthesis} {values : List Expr}
    (short : values.length < synthesis.arity) :
    synthesis.texts values = (values.map Expr.texts).flatten := by
  match synthesis, values with
  | .negate, [] => rfl
  | .nilCheck operator, [] => rfl
  | .compare operator, [] => rfl
  | .compare operator, [only] => rfl

theorem label_positional {arguments : List Argument} :
    ∀ argument ∈ positional arguments, argument.label = none := by
  intro argument member
  exact Option.isNone_iff_eq_none.1 (List.mem_filter.1 member).2

/-- No label comes up in a condition. -/
theorem label_apply {arguments : List Argument} (synthesis : Synthesis)
    (unlabeled : ∀ argument ∈ arguments, argument.label = none) :
    ∀ argument ∈ synthesis.apply arguments, argument.label = none := by
  match synthesis, arguments with
  | .negate, first :: later | .nilCheck operator, first :: later =>
    rw [List.forall_mem_cons] at unlabeled
    exact List.forall_mem_cons.2 unlabeled
  | .compare operator, left :: right :: later =>
    rw [List.forall_mem_cons, List.forall_mem_cons] at unlabeled
    exact List.forall_mem_cons.2 ⟨rfl, unlabeled.2.2⟩
  | .none, arguments => exact unlabeled
  | .negate, [] | .compare operator, [] | .nilCheck operator, [] => exact unlabeled
  | .compare operator, [only] => exact unlabeled

theorem label_stripComma {arguments : List Argument}
    (unlabeled : ∀ argument ∈ arguments, argument.label = none) :
    ∀ argument ∈ stripComma arguments, argument.label = none := by
  refine modifyLast_forall unlabeled fun argument none => ?_
  unfold Argument.withoutComma
  split <;> exact none

/-! ### The pass over a tree -/

/-- A tree is cut at the calls of assertions with both parentheses. -/
def assertionCalls : Stops where
  expr expr := expr.expectation?.isSome

/-- An expression with the head is the call of an assertion with both parentheses. -/
def Head.isAssertion : Head → Bool
  | .call callee closed => (callee.bind assertionRule?).isSome && closed
  | _ => false

/-- The calls that are stopped at are those whose heads are assertions. -/
theorem assertionCalls_expr (expr : Expr) :
    assertionCalls.expr expr = expr.head.isAssertion := by
  cases expr with
  | call callee list closure =>
    simp only [assertionCalls, Expr.expectation?, Expr.head, Head.isAssertion]
    cases callee.name?.bind assertionRule? with
    | none => rfl
    | some rule =>
      show (if list.isClosed then _ else _ : Option Expr).isSome = (true && list.isClosed)
      cases list.isClosed <;> rfl
  | _ => rfl

/-- An assertion is a call. -/
theorem Head.exists_call_of_isAssertion {head : Head} (isAssertion : head.isAssertion = true) :
    ∃ callee closed, head = .call callee closed := by
  cases head with
  | call callee closed => exact ⟨callee, closed, rfl⟩
  | _ => cases isAssertion

theorem Head.rename_id (head : Head) : head.rename id = head := by
  cases head <;> simp [Head.rename]

/-- The pass rebuilds assertions and leaves all other tokens as they are. -/
theorem reworks_assertionTransformer :
    assertionTransformer.Reworks assertionCalls {} id where
  pass {old new parts} other head settles := by
    -- The parts keep their names, so rebuilding makes no assertion of the whole.
    rw [Head.rename_id] at head
    rw [assertionCalls_expr, ← head, ← assertionCalls_expr] at other
    have none : new.expectation? = none := by simpa [assertionCalls] using other
    refine ⟨settles.bind fun _ same => ?_, rfl, ?_⟩
    · subst same
      simp only [none]
      exact .pure rfl
    · rw [Expr.name?_eq, Expr.name?_eq, head, Option.map_id_fun, id]
  stop {old parts} stop settles := by
    -- An assertion is a call before and after, and a call is no name.
    rw [assertionCalls_expr] at stop
    obtain ⟨callee, closed, isCall⟩ := Head.exists_call_of_isAssertion stop
    rw [Expr.name?_eq old, isCall]
    refine settles.bind fun new head => ?_
    rw [Head.rename_id, isCall] at head
    cases found : new.expectation? with
    | none => exact .pure ((Expr.name?_eq new).trans (congrArg Head.name? head))
    | some expectation =>
      obtain ⟨rule, callee, list, closure, rfl, -, rfl⟩ := exists_of_expectation?_eq_some found
      exact .after (.pure rfl)
  passClosure _ := rfl
  stopClosure stop := nomatch stop
  signature _ _ _ _ _ := rfl
  decl _ _ := rfl
  statement _ _ := rfl

/-- The expression after the pass. -/
def Expr.migrated (expr : Expr) : Expr :=
  (expr.transform assertionTransformer 0).1

/-- The argument with its value after the pass. -/
def Argument.migrated (argument : Argument) : Argument :=
  { argument with value := argument.value.migrated }

/-- The arguments after the pass. -/
def CallArguments.migrated (list : CallArguments) : CallArguments :=
  { list with arguments := list.arguments.map Argument.migrated }

/-- The closure after the pass. -/
def Closure.migrated (closure : Closure) : Closure :=
  (closure.transform assertionTransformer 0).1

/-- The tokens of a part after the pass: an assertion is migrated, and the rest stays. -/
def Part.migratedTokens : Part → List Token
  | .expr call => call.migrated.tokens
  | part => part.tokens

/-- The migrated expression is what the pass makes of it, whatever has been counted. -/
theorem transform_expr_eq_migrated (expr : Expr) (count : Nat) :
    (expr.transform assertionTransformer count).1 = expr.migrated :=
  (reworks_assertionTransformer.settles_expr 0 expr).eq_of_state count 0

theorem transform_closure?_eq_migrated (closure : Option Closure) (count : Nat) :
    (transformClosure? assertionTransformer closure count).1 = closure.map Closure.migrated := by
  cases closure with
  | none => rfl
  | some closure =>
    have settles := reworks_assertionTransformer.settles_closure 0 closure
    exact congrArg some (settles.eq_of_state count 0)

theorem transform_arguments_eq_migrated (arguments : List Argument) (count : Nat) :
    (transformArguments assertionTransformer arguments count).1 =
      arguments.map Argument.migrated := by
  induction arguments generalizing count with
  | nil => rfl
  | cons first later ih =>
    -- The count goes on, but what becomes of a value does not depend on it.
    obtain ⟨label, value, comma⟩ := first
    rw [List.map_cons, ← ih (value.transform assertionTransformer count).2, Argument.migrated,
      ← transform_expr_eq_migrated value count]
    rfl

/-- The values without a label stay in their order when they are migrated. -/
theorem values_positional_migrated (arguments : List Argument) :
    (positional (arguments.map Argument.migrated)).map Argument.value =
      (positional arguments).map fun argument => argument.value.migrated := by
  have labels : positional (arguments.map Argument.migrated) =
      (positional arguments).map Argument.migrated := List.filter_map
  rw [labels, List.map_map]
  rfl

theorem assertionTransformer_expr (old : Expr) (parts : StateM Nat Expr) (count : Nat) :
    (assertionTransformer.expr old parts count).1 =
      (parts count).1.expectation?.getD (parts count).1 := by
  obtain ⟨rebuilt, later, parts_eq⟩ : ∃ rebuilt later, parts count = (rebuilt, later) :=
    ⟨_, _, rfl⟩
  simp only [assertionTransformer, bind, StateT.bind, parts_eq]
  cases rebuilt.expectation? <;> rfl

/-- A call is looked at after its parts. -/
theorem migrated_call (token : Token) (list : CallArguments) (closure : Option Closure) :
    let new := Expr.call (.identifier token) list.migrated (closure.map Closure.migrated)
    (Expr.call (.identifier token) list closure).migrated = new.expectation?.getD new := by
  obtain ⟨left, arguments, right⟩ := list
  apply (assertionTransformer_expr _ _ 0).trans
  apply congrArg fun new : Expr => new.expectation?.getD new
  show Expr.call (.identifier token)
    ⟨left, (transformArguments assertionTransformer arguments 0).1, right⟩
    (transformClosure? assertionTransformer closure
      (transformArguments assertionTransformer arguments 0).2).1 = _
  rw [transform_arguments_eq_migrated, transform_closure?_eq_migrated]
  rfl

/-- The tokens of migrated parts are those of the tree that is made of them. -/
theorem tokens_reworked (parts : List Part) :
    (parts.flatMap (Part.reworked assertionTransformer 0 {})).flatMap Part.tokens =
      parts.flatMap Part.migratedTokens := by
  rw [List.flatMap_assoc]
  apply List.flatMap_congr
  intro part _
  cases part with
  | token only => rfl
  | expr call => exact Expr.tokens_cut {} call.migrated
  | closure closure => exact List.flatMap_singleton ..

/-- The tokens of a migrated expression, part by part. -/
theorem tokens_migrated (expr : Expr) :
    expr.migrated.tokens = (expr.cut assertionCalls).flatMap Part.migratedTokens := by
  have reworked := (reworks_assertionTransformer.settles_expr 0 expr).holds 0
  rw [← tokens_reworked, ← reworked.2.parts]
  exact (Expr.tokens_cut {} expr.migrated).symm

/-- The tokens of a file after the pass, part by part. -/
theorem tokens_assertionPass (file : SourceFile) :
    Node.tokens (assertionPass.run file).file =
      (file.cut assertionCalls).flatMap Part.migratedTokens := by
  rw [← tokens_reworked, ← reworks_assertionTransformer.cut_file 0 file]
  exact (SourceFile.tokens_cut {} (assertionPass.run file).file).symm

/-- The arguments of an assertion after the pass, built from the arguments before. -/
structure KeepsArguments (synthesis : Synthesis) (old new : CallArguments) : Prop where
  leftParen : new.leftParen = old.leftParen
  rightParen : new.rightParen = old.rightParen
  unlabeled : ∀ argument ∈ new.arguments, argument.label = none
  /-- The values without a label are all there, in order and migrated. What the condition adds is
  listed by `Synthesis.texts`. -/
  texts : valueTexts new.arguments =
    synthesis.texts ((positional old.arguments).map fun argument => argument.value.migrated)
  /-- Too few values are left as they are. -/
  short : (positional old.arguments).length < synthesis.arity →
    valueTexts new.arguments =
      ((positional old.arguments).map fun argument => argument.value.migrated.texts).flatten

/-- The tokens of a tree before and after the pass, given the parts of the tree: the only parts that
change are assertions. -/
structure MigratesOnly (parts : List Part) (old new : List Token) : Prop where
  isStop : ∀ part ∈ parts, part.IsStop assertionCalls
  old_eq : old = parts.flatMap Part.tokens
  new_eq : new = parts.flatMap Part.migratedTokens

/-- An assertion is migrated with its arguments and the closure behind it. -/
theorem migrated_assertion {rule : AssertionRule} {callee : Expr} {list : CallArguments}
    (closure : Option Closure) (named : callee.name?.bind assertionRule? = some rule)
    (closed : list.isClosed = true) :
    (Expr.call callee list closure).migrated =
      migrateAssertion rule callee list.migrated (closure.map Closure.migrated) := by
  -- The callee is a name, and a name stays as it is.
  obtain ⟨name, calleeNamed, _⟩ := Option.bind_eq_some_iff.1 named
  obtain ⟨token, rfl⟩ : ∃ token, callee = .identifier token := by
    cases callee with
    | identifier token => exact ⟨token, rfl⟩
    | _ => cases calleeNamed
  have found : (Expr.call (.identifier token) list.migrated
      (closure.map Closure.migrated)).expectation? =
      some (migrateAssertion rule (.identifier token) list.migrated
        (closure.map Closure.migrated)) := by
    simp only [Expr.expectation?, named]
    exact if_pos closed
  rw [migrated_call, found]
  rfl

/-- An expectation keeps the arguments of its assertion. -/
theorem keepsArguments_migrateAssertion (synthesis : Synthesis) (list : CallArguments) :
    KeepsArguments synthesis list
      { list.migrated with
        arguments := stripComma (synthesis.apply (positional list.migrated.arguments)) } := by
  have texts : valueTexts (stripComma (synthesis.apply (positional list.migrated.arguments))) =
      synthesis.texts
        ((positional list.arguments).map fun argument => argument.value.migrated) := by
    rw [valueTexts_stripComma, valueTexts_apply]
    exact congrArg synthesis.texts (values_positional_migrated list.arguments)
  refine ⟨rfl, rfl, label_stripComma (label_apply synthesis label_positional), texts, ?_⟩
  -- With too few values there is no condition to build.
  intro short
  refine texts.trans ((Synthesis.texts_of_short (by rwa [List.length_map])).trans ?_)
  rw [List.map_map]
  rfl

/-- The migration of assertions neither loses nor duplicates code. An assertion with both
parentheses keeps them, its closure and the values of its arguments, and nothing outside of the
assertions changes, be it in an expression or in a file. -/
theorem assertions_conserved :
    (∀ (rule : AssertionRule) (callee : Expr) (list : CallArguments) (closure : Option Closure),
      callee.name?.bind assertionRule? = some rule → list.isClosed = true →
      ∃ new : CallArguments, KeepsArguments rule.synthesis list new ∧
        (Expr.call callee list closure).migrated =
          .call (rule.replacement.callee callee) new (closure.map Closure.migrated)) ∧
    (∀ expr : Expr,
      MigratesOnly (expr.cut assertionCalls) expr.tokens expr.migrated.tokens) ∧
    ∀ file : SourceFile,
      MigratesOnly (file.cut assertionCalls) (Node.tokens file)
        (Node.tokens (assertionPass.run file).file) := by
  refine ⟨?_, fun expr => ?_, fun file => ?_⟩
  · intro rule callee list closure named closed
    exact ⟨_, keepsArguments_migrateAssertion rule.synthesis list,
      migrated_assertion closure named closed⟩
  · exact ⟨(assertionCalls.finds_nothing.expr_covers expr).isStop,
      (Expr.tokens_cut assertionCalls expr).symm, tokens_migrated expr⟩
  · have covers := assertionCalls.finds_nothing.statements_covers file.statements
    exact ⟨(covers.behind [file.endOfFile]).isStop,
      (SourceFile.tokens_cut assertionCalls file).symm, tokens_assertionPass file⟩

/-- In `XCTAssertEqual(a, message: b, XCTAssertTrue(c || d))` the labelled argument is dropped, the
inner assertion is migrated, and both values are compared. -/
theorem assertions_conserved_nested :
    let name (text : String) : Expr := .identifier (.ofName text)
    let list (arguments : List Argument) : CallArguments :=
      { leftParen := some (.ofPunctuation '('), arguments, rightParen := some (.ofPunctuation ')') }
    let comma : Token := .ofPunctuation ','
    let label : Label := { name := .ofName "message", colon := .ofPunctuation ':' }
    let inner : Expr :=
      .call (name "XCTAssertTrue")
        (list [.ofValue (.sequence [name "c", name "d"] [.ofOperator "||"])]) none
    let arguments : List Argument :=
      [{ label := none, value := name "a", comma := some comma },
       { label := some label, value := name "b", comma := some comma }, .ofValue inner]
    ∃ new : CallArguments,
      (Expr.call (name "XCTAssertEqual") (list arguments) none).migrated =
        .call (name "#expect") new none ∧
      valueTexts new.arguments = ["a", "==", "#expect", "(", "c", "||", "d", ")"] := by
  intro name list comma label inner arguments
  obtain ⟨new, keeps, migrated⟩ := assertions_conserved.1 ⟨.expect, .compare "=="⟩
    (name "XCTAssertEqual") (list arguments) none (by decide +kernel) (by decide +kernel)
  exact ⟨new, migrated, keeps.texts.trans (by decide +kernel)⟩

end SuiteMigration
