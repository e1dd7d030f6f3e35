import Mathlib.Tactic.Common
import SuiteMigration.Proofs.Tree.Rebuilding
import SuiteMigration.Proofs.Tree.Retouching
import SuiteMigration.Suite.Conversion

/-!
# Bodies under the conversion of suites

The conversion of suites changes headers, drops calls of inherited hooks, and qualifies references
to members. None of this makes a call of a legacy name out of something else: a qualified reference
is no bare name any more, and a statement that takes over comments only gets other trivia.

## Main results

* `carries_qualifier` - qualifying references keeps a property of calls
* `throughout_dropSuperCalls` - so does removing calls of inherited hooks
* `throughout_convertSuite` - so does the conversion of one suite
* `carries_suiteTransformer` - so does the conversion of all suites of a file
-/

namespace SuiteMigration

variable {p : Expr → Prop}

/-! ### Qualified references -/

/-- A qualified reference is no bare name, and ends like the reference. -/
theorem alike_qualified (token : Token) : (Expr.identifier token).Alike (qualified token) :=
  .ofEnding rfl rfl rfl

/-- A qualified reference is a member of a name, and no call. -/
theorem throughout_qualified (law : CallProperty p) (token : Token) :
    Throughout p ((qualified token).walk .everywhere) := by
  simpa [qualified, Expr.walk, walkExpr?] using And.intro (law.other _ rfl) (law.other _ rfl)

/-- Qualifying references keeps a property of calls throughout. -/
theorem carries_qualifier (law : CallProperty p) (table : SymbolTable) :
    (qualifier table).Carries p p where
  expr expr parts visits yields := by
    have rebuilt := yields.throughout_of_rebuilt law visits
    simp only [qualifier]
    split
    · rename_i token
      refine .after fun state => ?_
      split
      · exact .after fun _ => .pure ⟨throughout_qualified law token, alike_qualified token⟩
      · exact rebuilt
    · exact rebuilt
  closure closure parts visits yields :=
    .after fun _ => .after fun _ => yields.bind fun _ rebuilt => .after fun _ => .pure rebuilt
  decl decl parts visits yields := by
    simp only [qualifier]
    -- Only the values of variables are entered; other declarations stay as they are.
    split
    · exact yields.bind fun _ new => .after fun _ => .pure new
    · exact .after fun _ => .pure visits
    · exact .pure visits
  statement _ _ _ yields := yields.singleton

/-- A body with its references qualified keeps a property of calls throughout. -/
theorem throughout_qualifyBody (law : CallProperty p) (table : SymbolTable)
    (header : FunctionHeader) {body : Option CodeBlock}
    (visits : Throughout p (walkBlock? .everywhere body)) :
    Throughout p (walkBlock? .everywhere (qualifyBody table header body).1) :=
  (carries_qualifier law table).yields_block? body visits _

theorem throughout_ite_qualifyBody (law : CallProperty p) (needed : Bool) (table : SymbolTable)
    (header : FunctionHeader) {body : Option CodeBlock}
    (visits : Throughout p (walkBlock? .everywhere body)) :
    Throughout p (walkBlock? .everywhere
      (if needed then (qualifyBody table header body).1 else body)) := by
  split
  · exact throughout_qualifyBody law table header visits
  · exact visits

/-! ### Calls of inherited hooks -/

/-- Trivia that is carried over to a statement keeps a property of calls. -/
theorem Statement.throughout_withCarried (law : CallProperty p) (carried : Option Trivia)
    {statement : Statement} (visits : Throughout p (statement.walk .everywhere)) :
    Throughout p ((statement.withCarried carried).walk .everywhere) := by
  cases carried with
  | none => exact visits
  | some removed => exact Statement.throughout_setLeading law _ visits

/-- The statements that are left without calls of `super` keep a property of calls. -/
theorem throughout_dropSuperCalls (law : CallProperty p) (names : List String)
    (carried : Option Trivia) {statements : List Statement}
    (visits : Throughout p (walkStatements .everywhere statements)) :
    Throughout p (walkStatements .everywhere (dropSuperCalls names carried statements).1) := by
  induction statements generalizing carried with
  | nil => exact throughout_nil
  | cons statement later ih =>
    simp only [walkStatements, throughout_append] at visits
    have carriedVisits := Statement.throughout_withCarried law carried visits.1
    simp only [dropSuperCalls]
    split
    · -- The call is gone, and only its comments go on to the next statement.
      exact ih _ visits.2
    · simp only [walkStatements, throughout_append]
      exact ⟨carriedVisits, ih none visits.2⟩

theorem throughout_removeSuperCalls (law : CallProperty p) (lifecycle : Lifecycle)
    {body : Option CodeBlock} (visits : Throughout p (walkBlock? .everywhere body)) :
    Throughout p (walkBlock? .everywhere (body.map (removeSuperCalls lifecycle))) := by
  cases body with
  | none => exact throughout_nil
  | some block =>
    obtain ⟨left, statements, right⟩ := block
    exact throughout_dropSuperCalls law lifecycle.names none visits

/-! ### Members and suites -/

/-- A function is looked at in its body only. -/
theorem throughout_function {header : FunctionHeader} {body : Option CodeBlock} :
    Throughout p ((Decl.function header body).walk .everywhere) ↔
      Throughout p (walkBlock? .everywhere body) := by
  simp [Decl.walk]

/-- A converted method keeps a property of calls throughout its body. -/
theorem throughout_convertFunction (law : CallProperty p) (strategy : Strategy)
    (context : SuiteContext) (header : FunctionHeader) {body : Option CodeBlock}
    (visits : Throughout p (walkBlock? .everywhere body)) :
    Throughout p ((convertFunction strategy context header body).walk .everywhere) := by
  unfold convertFunction
  split
  · simpa [toInitializer, Decl.walk] using throughout_removeSuperCalls law .setUp visits
  · simpa [toFinalizer, Decl.walk] using throughout_removeSuperCalls law .tearDown visits
  · rw [throughout_function]
    exact throughout_ite_qualifyBody law _ _ _ visits

theorem throughout_convertDecl (law : CallProperty p) (strategy : Strategy)
    (context : SuiteContext) {decl : Decl} (visits : Throughout p (decl.walk .everywhere)) :
    Throughout p ((convertDecl strategy context decl).walk .everywhere) := by
  match decl, visits with
  | .function header body, visits =>
    exact throughout_convertFunction law strategy context header (throughout_function.1 visits)
  | .variable header bindings, visits => simpa [convertDecl, Decl.walk] using visits
  | .initializer header body, visits => simpa [convertDecl, Decl.walk] using visits
  | .importing _, visits | .type _ _, visits | .finalizer _ _, visits | .raw _, visits =>
    exact visits

/-- A converted member keeps a property of calls throughout. -/
theorem throughout_convertMember (law : CallProperty p) (strategy : Strategy)
    (context : SuiteContext) {statement : Statement}
    (visits : Throughout p (statement.walk .everywhere)) :
    Throughout p ((convertMember strategy context statement).walk .everywhere) := by
  unfold convertMember
  split
  · rename_i decl item_eq
    rw [Statement.walk_eq] at visits ⊢
    rw [item_eq] at visits
    exact throughout_convertDecl law strategy context visits
  · exact visits

theorem throughout_markMember (names : List String) {statement : Statement}
    (visits : Throughout p (statement.walk .everywhere)) :
    Throughout p ((markMember names statement).walk .everywhere) := by
  unfold markMember
  split
  · rename_i header body item_eq
    split
    · rw [Statement.walk_eq] at visits ⊢
      rw [item_eq] at visits
      exact throughout_function.2 (throughout_function.1 visits)
    · exact visits
  · exact visits

/-- A property that is kept at every member is kept by a block. -/
theorem throughout_map_statements {change : Statement → Statement} {block : CodeBlock}
    (kept : ∀ statement, Throughout p (statement.walk .everywhere) →
      Throughout p ((change statement).walk .everywhere))
    (visits : Throughout p (block.walk .everywhere)) :
    Throughout p (CodeBlock.walk .everywhere
      { block with statements := block.statements.map change }) := by
  obtain ⟨left, statements, right⟩ := block
  simp only [CodeBlock.walk, throughout_statements, List.forall_mem_map] at visits ⊢
  exact fun statement member => kept statement (visits statement member)

/-- A type is looked at in its members only. -/
theorem throughout_type {header : TypeHeader} {members : CodeBlock} :
    Throughout p ((Decl.type header members).walk .everywhere) ↔
      Throughout p (members.walk .everywhere) := by
  simp [Decl.walk]

/-- A converted suite keeps a property of calls throughout its members. -/
theorem throughout_convertSuite (law : CallProperty p) (strategy : Strategy)
    (header : TypeHeader) {members : CodeBlock}
    (visits : Throughout p (members.walk .everywhere)) :
    Throughout p ((convertSuite strategy header members).walk .everywhere) := by
  have converted := throughout_map_statements
    (fun _ => throughout_convertMember law strategy (SuiteContext.ofMembers members)) visits
  cases strategy with
  | reference => exact throughout_type.2 converted
  | value =>
    refine throughout_type.2 ?_
    exact throughout_map_statements (fun _ => throughout_markMember _) converted

/-- Converting suites keeps a property of calls throughout. -/
theorem carries_suiteTransformer (law : CallProperty p) (strategy : Strategy) :
    (suiteTransformer strategy).Carries p p where
  expr expr parts visits yields := yields.throughout_of_rebuilt law visits
  closure _ _ _ yields := yields
  decl decl parts visits yields := by
    simp only [suiteTransformer]
    split
    · rename_i header members
      split
      · exact .after fun _ => .pure
          (throughout_convertSuite law strategy header (throughout_type.1 visits))
      · exact yields
    · exact .pure visits
    · exact yields
  statement _ _ _ yields := yields.singleton

end SuiteMigration
