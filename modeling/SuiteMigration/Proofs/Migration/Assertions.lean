import Mathlib.Tactic.Common
import SuiteMigration.Migration
import SuiteMigration.Proofs.Expectation.Throwing
import SuiteMigration.Proofs.Suite.Bodies

/-!
# No assertion survives a migration

The passes lead from a tree of which nothing is known to one in which every expression is settled:
the pass over assertions about errors makes every expression quiet, the pass over the other
assertions makes it settled, and the conversion of suites keeps that. The pass over imports comes
first and needs to keep nothing. Where it ends the migration, no token of the file begins like a
name of the legacy framework, so there was no assertion to migrate.

## Main results

* `throughout_isSettled_of_not_mentionsLegacy` - a file without legacy names is settled
* `throughout_isSettled_migrateFile` - every expression of a migrated file is settled
* `no_assertion_survives` - the calls that a migrated file holds
-/

namespace SuiteMigration

/-! ### The passes -/

theorem throughout_ofTransformer {σ : Type} {t : Transformer σ} {p q : Expr → Prop}
    (laws : t.Carries p q) (initial : σ) (changes : σ → Nat) {file : SourceFile}
    (visits : Throughout p (walkStatements .everywhere file.statements)) :
    Throughout q (walkStatements .everywhere
      (Outcome.ofTransformer t initial changes file).file.statements) :=
  laws.yields_statements file.statements visits initial

/-- The token of a bare name is one of the tokens of the call. -/
theorem isLegacyCall_eq_false_of_within {tokens : List Token} {expr : Expr}
    (plain : ∀ token ∈ tokens, isLegacyName token.text = false)
    (within : expr.Within tokens) : expr.isLegacyCall = false := by
  cases expr with
  | call callee list closure =>
    cases callee with
    | identifier token =>
      have owned : token ∈ tokens := within (by simp [Expr.tokens])
      exact Expr.isLegacyCall_eq_false rfl (plain token owned)
    | _ => exact Bool.and_false _
  | _ => rfl

theorem throughout_isSettled_of_not_mentionsLegacy {file : SourceFile}
    (plain : file.mentionsLegacy = false) :
    Throughout Expr.IsSettled (walkStatements .everywhere file.statements) := by
  have words : ∀ token ∈ Node.tokens file, isLegacyName token.text = false := by
    intro token owned
    exact eq_false_of_ne_true (List.any_eq_false.1 plain token owned)
  have within : tokensOfStatements file.statements ⊆ Node.tokens file :=
    List.subset_append_left _ _
  exact (throughout_within_statements file.statements within).mono fun expr owned =>
    isSettled_of_not_isLegacyCall (isLegacyCall_eq_false_of_within words owned)

/-- The pass over imports ends the migration only of a file without legacy names. -/
theorem of_importPass_halt {file : SourceFile} (halted : (importPass.run file).flow = .halt) :
    (importPass.run file).file = file ∧ file.mentionsLegacy = false := by
  simp only [importPass] at halted ⊢
  split at halted
  · cases halted
  · rename_i absent
    split at halted
    · rename_i condition
      refine ⟨by rw [if_neg absent], ?_⟩
      simpa using (Bool.and_eq_true_iff.1 condition).2
    · cases halted

/-- Only the first pass can end the migration. -/
theorem migrateFile_of_proceed {file : SourceFile} (strategy : Strategy)
    (proceeds : (importPass.run file).flow ≠ .halt) :
    migrateFile strategy file =
      ((suitePass strategy).run (assertionPass.run
        (throwingPass.run (importPass.run file).file).file).file).file := by
  rw [migrateFile, passes, runPasses, if_neg proceeds]
  rfl

theorem throughout_isSettled_migrateFile (strategy : Strategy) (file : SourceFile) :
    Throughout Expr.IsSettled
      (walkStatements .everywhere (migrateFile strategy file).statements) := by
  by_cases halted : (importPass.run file).flow = .halt
  · obtain ⟨same, plain⟩ := of_importPass_halt halted
    have ended : migrateFile strategy file = file := by
      rw [migrateFile, passes, runPasses, if_pos halted, same]
    rw [ended]
    exact throughout_isSettled_of_not_mentionsLegacy plain
  · rw [migrateFile_of_proceed strategy halted]
    -- Nothing need be known of the tree that the pass over imports leaves.
    have anything : Throughout (fun _ => True)
        (walkStatements .everywhere (importPass.run file).file.statements) :=
      fun _ _ => trivial
    have quiet := throughout_ofTransformer carries_throwingTransformer {} (·.changes) anything
    have settled := throughout_ofTransformer carries_assertionTransformer 0 id quiet
    exact throughout_ofTransformer (carries_suiteTransformer callProperty_isSettled strategy) 0 id
      settled

/-! ### What is left -/

/-- No assertion that could be migrated survives. Wherever a walk into all bodies of a migrated file
meets a call of a bare name with closed arguments, the name is not in the table of assertions. If no
closure follows and the name is that of an assertion about errors, then the first argument without a
label, if there is one, has no value or a comment after it. -/
theorem no_assertion_survives (strategy : Strategy) (source : String) {callee : Expr}
    {list : CallArguments} {closure : Option Closure} {name : String}
    (met : Visit.expr (.call callee list closure) ∈
      walkStatements .everywhere (migrateFile strategy (.parse source)).statements)
    (named : callee.name? = some name) (closed : list.isClosed = true) :
    name ∉ assertionRules.map Prod.fst ∧
      (closure = none → name = "XCTAssertThrowsError" ∨ name = "XCTAssertNoThrow" →
        ∀ body, list.arguments.find? (fun argument => argument.label.isNone) = some body →
          body.value.isEmpty = true ∨ (Node.trailing body.value).hasComment = true) := by
  have settled := throughout_isSettled_migrateFile strategy (.parse source) _ met
  constructor
  · have absent := expectation?_eq_none_iff.1 settled.1 name named closed
    rw [assertionRule?, List.lookup_eq_none_iff] at absent
    intro member
    obtain ⟨entry, entryMember, rfl⟩ := List.mem_map.1 member
    simpa using absent entry entryMember
  · rintro rfl about body first
    have expected : ThrowExpectation.ofName? name ≠ none := by
      rcases about with rfl | rfl <;> decide
    have unusable : list.hasUsableBody ≠ true := fun usable =>
      expected (isQuiet_iff.1 settled.2 name named closed usable)
    have body_eq : (positional list.arguments).head? = some body := by
      rw [positional, List.head?_filter, first]
    simpa [CallArguments.hasUsableBody, body_eq, ThrowExpectation.isUsable, imp_iff_not_or]
      using unusable

/-- The call of an assertion that nothing throws, with closed arguments and without a handler. -/
def Visit.isOpenNoThrow : Visit → Bool
  | .expr (.call callee list none) =>
    callee.isName "XCTAssertNoThrow" && list.isClosed &&
      (list.arguments.find? fun argument => argument.label.isNone).isSome
  | _ => false

/-- An assertion that is left because a comment follows its body. -/
theorem no_assertion_survives_commented :
    ∃ callee list body,
      Visit.expr (.call callee list none) ∈ walkStatements .everywhere
        (migrateFile .value (.parse "import XCTest\nXCTAssertNoThrow(f() /* why */)")).statements ∧
      callee.name? = some "XCTAssertNoThrow" ∧ list.isClosed = true ∧
      list.arguments.find? (fun argument => argument.label.isNone) = some body ∧
      (body.value.isEmpty = true ∨ (Node.trailing body.value).hasComment = true) := by
  have left : (walkStatements .everywhere (migrateFile .value
      (.parse "import XCTest\nXCTAssertNoThrow(f() /* why */)")).statements).any
        Visit.isOpenNoThrow = true := by
    decide +kernel
  obtain ⟨visit, met, shape⟩ := List.any_eq_true.1 left
  unfold Visit.isOpenNoThrow at shape
  split at shape
  · rename_i callee list
    simp only [Bool.and_eq_true, Expr.isName, beq_iff_eq, Option.isSome_iff_exists] at shape
    obtain ⟨⟨named, closed⟩, body, first⟩ := shape
    exact ⟨callee, list, body, met, named, closed, first,
      (no_assertion_survives .value _ met named closed).2 rfl (.inr rfl) body first⟩
  · cases shape

end SuiteMigration
