import Mathlib.Tactic.Common
import SuiteMigration.Proofs.Expectation.Refusals
import SuiteMigration.Proofs.Tree.Rebuilding
import SuiteMigration.Proofs.Tree.Retouching

/-!
# Assertions that are left

Which calls the two passes over assertions migrate, and what the second pass leaves. An assertion is
migrated if its arguments are closed; an assertion about errors moreover needs a first argument that
can be the body of an expectation, and no handler. Both are properties of calls, so neither other
trivia around a node nor a transformation that keeps expressions alike makes a call migratable.

## Main definitions

* `Expr.IsQuiet` - the expression is no assertion about errors that could be migrated
* `Expr.IsSettled` - the expression is no assertion at all that could be migrated

## Main results

* `expectation?_eq_none_iff`, `isQuiet_iff` - when a call is not migrated
* `callProperty_isQuiet`, `callProperty_isSettled` - the two conditions are properties of calls
* `carries_assertionTransformer` - after the pass over assertions every expression is settled
-/

namespace SuiteMigration

/-! ### When a call is migrated -/

/-- The expression is no assertion about errors that could be migrated. -/
def Expr.IsQuiet (expr : Expr) : Prop :=
  expr.throwing? = none

/-- The expression is no assertion that could be migrated. -/
def Expr.IsSettled (expr : Expr) : Prop :=
  expr.expectation? = none ∧ expr.IsQuiet

/-- A call becomes no expectation if it is not closed or its name has no rule. -/
theorem expectation?_eq_none_iff {callee : Expr} {list : CallArguments}
    {closure : Option Closure} :
    (Expr.call callee list closure).expectation? = none ↔
      ∀ name, callee.name? = some name → list.isClosed = true → assertionRule? name = none := by
  cases named : callee.name? with
  | none => simp [Expr.expectation?, named]
  | some name =>
    cases found : assertionRule? name with
    | none => simp [Expr.expectation?, named, found]
    | some rule => simp [Expr.expectation?, named, found]

/-- Without a closure behind it a call is quiet if no block is asserted to throw, or not one that
can be used. -/
theorem isQuiet_iff {callee : Expr} {list : CallArguments} :
    (Expr.call callee list none).IsQuiet ↔
      ∀ name, callee.name? = some name → list.isClosed = true → list.hasUsableBody = true →
        ThrowExpectation.ofName? name = none := by
  unfold Expr.IsQuiet
  cases closed : list.isClosed with
  | false => simp [Expr.throwing?_eq, throwExpectation?, closed]
  | true =>
    cases named : callee.name? with
    | none => simp [Expr.throwing?_eq, throwExpectation?, named]
    | some name =>
      cases found : ThrowExpectation.ofName? name with
      | none => simp [Expr.throwing?_eq, throwExpectation?, named, found]
      | some expectation =>
        simp [Expr.throwing?_eq, throwExpectation?, closed, named, found,
          ThrowExpectation.call?_eq_none_iff]

/-- A handler keeps an assertion about errors from being migrated as an expression. -/
theorem isQuiet_of_closure (callee : Expr) (list : CallArguments) (closure : Closure) :
    (Expr.call callee list (some closure)).IsQuiet :=
  rfl

/-! ### Properties of calls -/

/-- The names with a rule are names of old calls. -/
theorem isLegacyName_of_assertionRule? {name : String} {rule : AssertionRule}
    (found : assertionRule? name = some rule) : isLegacyName name = true := by
  have legacy : ∀ entry ∈ assertionRules, isLegacyName entry.1 = true := by decide
  obtain ⟨before, after, split, -⟩ := List.lookup_eq_some_iff.1 found
  exact legacy (name, rule) (by rw [split]; simp)

/-- So are the names of assertions about blocks that throw. -/
theorem isLegacyName_of_ofName? {name : String} {expectation : ThrowExpectation}
    (found : ThrowExpectation.ofName? name = some expectation) : isLegacyName name = true := by
  unfold ThrowExpectation.ofName? at found
  split at found
  · decide
  · decide
  · cases found

/-- What is none of the old calls is settled. -/
theorem isSettled_of_not_isLegacyCall {expr : Expr} (other : expr.isLegacyCall = false) :
    expr.IsSettled := by
  cases expr with
  | call callee list closure =>
    have unknown : ∀ name, callee.name? = some name → list.isClosed = true →
        isLegacyName name ≠ true := by
      intro name named closed
      simpa [Expr.isLegacyCall, named, closed] using other
    constructor
    · rw [expectation?_eq_none_iff]
      intro name named closed
      by_contra found
      obtain ⟨rule, found⟩ := Option.ne_none_iff_exists'.1 found
      exact unknown name named closed (isLegacyName_of_assertionRule? found)
    · cases closure with
      | some closure => exact isQuiet_of_closure _ _ _
      | none =>
        rw [isQuiet_iff]
        intro name named closed _
        by_contra found
        obtain ⟨expectation, found⟩ := Option.ne_none_iff_exists'.1 found
        exact unknown name named closed (isLegacyName_of_ofName? found)
  | _ => exact ⟨rfl, rfl⟩

/-- Whether a block can be used does not depend on trivia. -/
theorem Argument.Alike.isUsable_eq {old new : Argument} (alike : old.Alike new) :
    ThrowExpectation.isUsable new.value = ThrowExpectation.isUsable old.value := by
  have trailing : Node.trailing new.value = Node.trailing old.value := by
    rw [Node.trailing_eq, Node.trailing_eq]
    exact congrArg (Option.getD · "") alike.value.ending
  rw [ThrowExpectation.isUsable, ThrowExpectation.isUsable, alike.value.isEmpty, trailing]

theorem any_isUsable_positional_eq {old new : List Argument}
    (alike : List.Forall₂ Argument.Alike old new) :
    (positional new).head?.any (fun body => ThrowExpectation.isUsable body.value) =
      (positional old).head?.any fun body => ThrowExpectation.isUsable body.value := by
  induction alike with
  | nil => rfl
  | @cons first newFirst later newLater firstAlike _ ih =>
    -- A labelled argument is skipped on both sides.
    cases unlabelled : first.label.isNone with
    | true =>
      have newUnlabelled : newFirst.label.isNone = true := firstAlike.label.trans unlabelled
      simp [positional, unlabelled, newUnlabelled, firstAlike.isUsable_eq]
    | false =>
      have newLabelled : newFirst.label.isNone = false := firstAlike.label.trans unlabelled
      simpa [positional, List.filter_cons, unlabelled, newLabelled] using ih

theorem CallArguments.Alike.hasUsableBody_eq {old new : CallArguments} (alike : old.Alike new) :
    new.hasUsableBody = old.hasUsableBody :=
  any_isUsable_positional_eq alike.arguments

/-- A call that can be migrated as an assertion could be before. -/
theorem expectation?_eq_none_of_callsAlike {old new : Expr} (alike : old.CallsAlike new)
    (settled : old.expectation? = none) : new.expectation? = none := by
  cases new with
  | call callee list closure =>
    rw [expectation?_eq_none_iff]
    intro name named closed
    obtain ⟨oldCallee, oldList, oldClosure, rfl, calleeAlike, listAlike, -⟩ := alike closed
    rw [expectation?_eq_none_iff] at settled
    by_contra found
    obtain ⟨rule, rule_eq⟩ := Option.ne_none_iff_exists'.1 found
    have oldNamed := calleeAlike.name name (isLegacyName_of_assertionRule? rule_eq) named
    exact found (settled name oldNamed (listAlike.isClosed ▸ closed))
  | _ => rfl

/-- A call that can be migrated as an assertion about errors could be before. -/
theorem isQuiet_of_callsAlike {old new : Expr} (alike : old.CallsAlike new)
    (quiet : old.IsQuiet) : new.IsQuiet := by
  cases new with
  | call callee list closure =>
    cases closure with
    | some closure => exact isQuiet_of_closure _ _ _
    | none =>
      rw [isQuiet_iff]
      intro name named closed usable
      obtain ⟨oldCallee, oldList, oldClosure, rfl, calleeAlike, listAlike, sameClosure⟩ :=
        alike closed
      obtain rfl : oldClosure = none := by simpa using sameClosure.symm
      rw [isQuiet_iff] at quiet
      by_contra found
      obtain ⟨expectation, expectation_eq⟩ := Option.ne_none_iff_exists'.1 found
      have oldNamed := calleeAlike.name name (isLegacyName_of_ofName? expectation_eq) named
      exact found (quiet name oldNamed (listAlike.isClosed ▸ closed)
        (listAlike.hasUsableBody_eq ▸ usable))
  | _ => rfl

/-- Whether a call is quiet does not depend on trivia, and parentheses are no call. -/
theorem callProperty_isQuiet : CallProperty Expr.IsQuiet where
  other _ other := (isSettled_of_not_isLegacyCall other).2
  alike _ _ alike quiet := isQuiet_of_callsAlike alike quiet

/-- Whether a call is settled does not depend on trivia, and parentheses are no call. -/
theorem callProperty_isSettled : CallProperty Expr.IsSettled where
  other _ other := isSettled_of_not_isLegacyCall other
  alike _ _ alike settled :=
    ⟨expectation?_eq_none_of_callsAlike alike settled.1, isQuiet_of_callsAlike alike settled.2⟩

/-! ### The arguments of an expectation -/

section Arguments

variable {p : Expr → Prop} {arguments : List Argument}

theorem ThroughoutArguments.positional (visits : ThroughoutArguments p arguments) :
    ThroughoutArguments p (positional arguments) :=
  fun argument member => visits argument (List.mem_filter.1 member).1

theorem modifyLast_forall {α : Type} {holds : α → Prop} {change : α → α} {values : List α}
    (all : ∀ value ∈ values, holds value) (changed : ∀ value, holds value → holds (change value)) :
    ∀ value ∈ modifyLast change values, holds value := by
  match values with
  | [] => simp [modifyLast]
  | [last] => simpa [modifyLast] using changed last (all last (by simp))
  | first :: second :: later =>
    simp only [modifyLast, List.forall_mem_cons] at all ⊢
    exact ⟨all.1, modifyLast_forall (List.forall_mem_cons.2 all.2) changed⟩

/-- Without its last comma a list of arguments keeps a property of calls. -/
theorem ThroughoutArguments.stripComma (law : CallProperty p)
    (visits : ThroughoutArguments p arguments) :
    ThroughoutArguments p (stripComma arguments) := by
  refine modifyLast_forall visits fun argument visited => ?_
  unfold Argument.withoutComma
  split
  · exact visited
  · split
    · exact Expr.throughout_setTrailing law _ visited
    · exact visited

theorem Throughout.parenthesized (law : CallProperty p) {expr : Expr}
    (visits : Throughout p (expr.walk .everywhere)) :
    Throughout p (expr.parenthesized.walk .everywhere) := by
  have inner := Expr.throughout_setTrailing law "" (Expr.throughout_setLeading law "" visits)
  refine law.throughout_of_parts rfl ?_
  simpa [Expr.parenthesized, Expr.walk, ArgumentList.walk, walkArguments, Argument.ofValue]
    using inner

theorem Throughout.ite_parenthesized (law : CallProperty p) {expr : Expr} (needed : Bool)
    (visits : Throughout p (expr.walk .everywhere)) :
    Throughout p ((if needed then expr.parenthesized else expr).walk .everywhere) := by
  split
  · exact visits.parenthesized law
  · exact visits

/-- A comparison has the calls of both operands. -/
theorem Throughout.combined (law : CallProperty p) {left right : Expr} (operator : String)
    (leftVisits : Throughout p (left.walk .everywhere))
    (rightVisits : Throughout p (right.walk .everywhere)) :
    Throughout p ((combined left operator right).walk .everywhere) := by
  have leftNew := Expr.throughout_setTrailing law ""
    (leftVisits.ite_parenthesized law left.bindsLoosely)
  have rightNew := Expr.throughout_setLeading law ""
    (rightVisits.ite_parenthesized law (right.bindsLoosely || right.isMarked))
  refine law.throughout_of_parts rfl ?_
  simpa [SuiteMigration.combined, Expr.walk, walkOperands] using And.intro leftNew rightNew

/-- A negation has the calls of its operand. -/
theorem Throughout.negated (law : CallProperty p) {operand : Expr}
    (visits : Throughout p (operand.walk .everywhere)) :
    Throughout p ((negated operand).walk .everywhere) := by
  refine law.throughout_of_parts rfl ?_
  exact Expr.throughout_setLeading law "" (visits.ite_parenthesized law operand.needsParens)

/-- The condition of an expectation has the calls of the arguments it is made of. -/
theorem ThroughoutArguments.apply (law : CallProperty p) (synthesis : Synthesis)
    (visits : ThroughoutArguments p arguments) :
    ThroughoutArguments p (synthesis.apply arguments) := by
  unfold ThroughoutArguments at visits ⊢
  match synthesis, arguments, visits with
  | .negate, first :: later, visits =>
    simp only [Synthesis.apply, List.forall_mem_cons] at visits ⊢
    exact ⟨visits.1.negated law, visits.2⟩
  | .compare operator, left :: right :: later, visits =>
    simp only [Synthesis.apply, List.forall_mem_cons] at visits ⊢
    exact ⟨visits.1.combined law operator visits.2.1, visits.2.2⟩
  | .nilCheck operator, first :: later, visits =>
    simp only [Synthesis.apply, List.forall_mem_cons] at visits ⊢
    refine ⟨visits.1.combined law operator ?_, visits.2⟩
    refine law.throughout_of_parts rfl ?_
    exact throughout_nil
  | .none, _, visits | .negate, [], visits | .compare _, [], visits | .compare _, [_], visits
  | .nilCheck _, [], visits => exact visits

end Arguments

/-! ### The pass over assertions -/

/-- No macro has the name of an old call. -/
theorem Replacement.isLegacyCall_callee (replacement : Replacement) (old : Expr)
    (arguments : CallArguments) (closure : Option Closure) :
    (Expr.call (replacement.callee old) arguments closure).isLegacyCall = false := by
  cases replacement with
  | expect =>
    have named : (Replacement.expect.callee old).name? = some "#expect" := rfl
    exact Expr.isLegacyCall_eq_false named (by decide)
  | require =>
    have named : (Replacement.require.callee old).name? = some "#require" := rfl
    exact Expr.isLegacyCall_eq_false named (by decide)
  | issueRecord => exact Bool.and_false _

theorem Replacement.throughout_callee {p : Expr → Prop} (law : CallProperty p)
    (replacement : Replacement) (old : Expr) :
    Throughout p ((replacement.callee old).walk .everywhere) := by
  cases replacement with
  | expect | require => simpa [Replacement.callee, Expr.walk] using law.other _ rfl
  | issueRecord =>
    simpa [Replacement.callee, Expr.walk, walkExpr?] using
      And.intro (law.other _ rfl) (law.other _ rfl)

/-- An expectation has the calls of the assertion it stands for. -/
theorem throughout_migrateAssertion {p : Expr → Prop} (law : CallProperty p)
    (rule : AssertionRule) (callee : Expr) {list : CallArguments} {closure : Option Closure}
    (arguments : ThroughoutArguments p list.arguments)
    (trailing : Throughout p (walkClosure? .everywhere closure)) :
    Throughout p ((migrateAssertion rule callee list closure).walk .everywhere) := by
  have values := ((arguments.positional.apply law rule.synthesis).stripComma law)
  have calleeVisits := rule.replacement.throughout_callee law callee
  unfold migrateAssertion
  refine law.throughout_of_parts (Replacement.isLegacyCall_callee ..) ?_
  simp only [Expr.walk, List.tail_cons, throughout_append, throughout_callArguments]
  exact ⟨⟨calleeVisits, values⟩, trailing⟩

/-- An expectation ends like the assertion that it replaces. -/
theorem alike_migrateAssertion (rule : AssertionRule) (callee : Expr) {list : CallArguments}
    (closed : list.isClosed = true) (closure : Option Closure) :
    (Expr.call callee list closure).Alike (migrateAssertion rule callee list closure) := by
  obtain ⟨⟨opener, arguments, closer⟩, rfl, -⟩ := CallArguments.exists_eq_ofList closed
  refine .ofEnding rfl rfl ?_
  simp [migrateAssertion, CallArguments.ofList, Expr.tokens, CallArguments.tokens, Node.tokens]

/-- What becomes an expectation is a closed call whose name has a rule. -/
theorem exists_of_expectation?_eq_some {expr new : Expr} (found : expr.expectation? = some new) :
    ∃ rule callee list closure, expr = .call callee list closure ∧ list.isClosed = true ∧
      new = migrateAssertion rule callee list closure := by
  unfold Expr.expectation? at found
  split at found
  · rename_i callee list closure
    split at found
    · rename_i rule _
      split at found
      · rename_i closed
        exact ⟨rule, callee, list, closure, rfl, closed, (Option.some.inj found).symm⟩
      · cases found
    · cases found
  · cases found

/-- After the pass the calls that were quiet are settled. -/
theorem carries_assertionTransformer :
    assertionTransformer.Carries Expr.IsQuiet Expr.IsSettled where
  expr expr parts visits yields := by
    refine yields.bind fun new rebuilt => ?_
    -- Migrating the parts has not made an assertion about errors of the whole.
    have quiet : new.IsQuiet := isQuiet_of_callsAlike rebuilt.calls (throughout_walk.1 visits).1
    cases found : new.expectation? with
    | none =>
      exact .pure ⟨throughout_walk.2 ⟨⟨found, quiet⟩, rebuilt.parts⟩, rebuilt.alike⟩
    | some expectation =>
      obtain ⟨rule, callee, list, closure, rfl, closed, rfl⟩ := exists_of_expectation?_eq_some found
      have parts := rebuilt.parts
      simp only [Expr.walk, List.tail_cons, throughout_append, throughout_callArguments] at parts
      refine .after fun _ => .pure ⟨?_, ?_⟩
      · exact throughout_migrateAssertion callProperty_isSettled rule callee parts.1.2 parts.2
      · exact rebuilt.alike.trans (alike_migrateAssertion rule callee closed closure)
  closure _ _ _ yields := yields
  decl _ _ _ yields := yields
  statement _ _ _ yields := yields.singleton

end SuiteMigration
