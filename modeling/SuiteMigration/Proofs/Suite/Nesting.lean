import SuiteMigration.Proofs.Suite.Inheritance

/-!
# Suites that are left

The pass over suites goes into the types of a file to look for suites, but a suite that it finds is
converted without looking among its members. And the conversion removes one legacy base only. So
suites are left in a file just where a suite is nested in another one, or where a class that stays
one names the base more than once.

## Main definitions

* `SourceFile.types` - the types of a file and the types among their members, at any depth
* `legacySuites` - those of some types that are legacy suites
* `LeavesNone` - no legacy suite is left of a suite

## Main results

* `isEligible_converted` - when a converted suite is a legacy suite still
* `legacySuites_suitePass_eq_nil_iff` - when the pass leaves no legacy suite
* `legacySuites_suitePass_nested` - a suite that is left because it is nested in another one
-/

namespace SuiteMigration

/-! ### The types of a tree -/

mutual

/-- The declared type with the types among its members, at any depth. -/
def Decl.types : Decl → List (TypeHeader × CodeBlock)
  | .type header members => (header, members) :: members.types
  | _ => []

def CodeBlock.types : CodeBlock → List (TypeHeader × CodeBlock)
  | ⟨_, statements, _⟩ => typesOfStatements statements

def typesOfStatements : List Statement → List (TypeHeader × CodeBlock)
  | [] => []
  | statement :: later => statement.types ++ typesOfStatements later

def Statement.types : Statement → List (TypeHeader × CodeBlock)
  | ⟨item, _⟩ => item.types

def Item.types : Item → List (TypeHeader × CodeBlock)
  | .decl decl => decl.types
  | _ => []

end

/-- The types of a file with the types among their members, at any depth. -/
def SourceFile.types (file : SourceFile) : List (TypeHeader × CodeBlock) :=
  typesOfStatements file.statements

/-- The legacy suites among some types. -/
def legacySuites (types : List (TypeHeader × CodeBlock)) : List (TypeHeader × CodeBlock) :=
  types.filter fun type => type.1.isEligible

theorem typesOfStatements_append (first second : List Statement) :
    typesOfStatements (first ++ second) = typesOfStatements first ++ typesOfStatements second := by
  induction first with
  | nil => rfl
  | cons statement later ih =>
    rw [List.cons_append, typesOfStatements, typesOfStatements, ih, List.append_assoc]

theorem typesOfStatements_map {change : Statement → Statement}
    (same : ∀ statement : Statement, (change statement).types = statement.types)
    (statements : List Statement) :
    typesOfStatements (statements.map change) = typesOfStatements statements := by
  induction statements with
  | nil => rfl
  | cons statement later ih => rw [List.map_cons, typesOfStatements, typesOfStatements, same, ih]

/-! ### A converted suite -/

/-- Converting a member neither adds a type declaration nor takes one away. -/
theorem types_convertMember (strategy : Strategy) (context : SuiteContext)
    (statement : Statement) :
    (convertMember strategy context statement).types = statement.types := by
  obtain ⟨item, semicolon⟩ := statement
  cases item with
  | decl decl =>
    cases decl with
    | function header body =>
      show (convertFunction strategy context header body).types = []
      unfold convertFunction
      split <;> rfl
    | _ => rfl
  | _ => rfl

/-- Marking a member neither adds a type declaration nor takes one away. -/
theorem types_markMember (names : List String) (statement : Statement) :
    (markMember names statement).types = statement.types := by
  obtain ⟨item, semicolon⟩ := statement
  unfold markMember
  split
  · rename_i header body item_eq
    obtain rfl : item = .decl (.function header body) := item_eq
    split <;> rfl
  · rfl

/-- Types among the members of a suite stay as they are. -/
theorem types_converted (strategy : Strategy) (members : CodeBlock) :
    (members.converted strategy).types = members.types := by
  obtain ⟨left, statements, right⟩ := members
  cases strategy with
  | reference => exact typesOfStatements_map (types_convertMember _ _) statements
  | value =>
    exact (typesOfStatements_map (types_markMember _) _).trans
      (typesOfStatements_map (types_convertMember _ _) statements)

/-- A header is eligible when it heads a class and names a legacy base. -/
theorem TypeHeader.isEligible_iff (header : TypeHeader) :
    header.isEligible = true ↔ header.keyword.isKeyword "class" = true ∧
      ∃ name ∈ header.inheritedNames, legacyBaseNames.contains name = true := by
  rw [isEligible, Bool.and_eq_true, baseIndex?, inheritedNames, inheritedTypes]
  refine and_congr_right fun _ => ?_
  cases header.inheritance with
  | none => simp
  | some clause =>
    rw [Option.bind_some, List.findIdx?_isSome, List.any_eq_true, isLegacyBase_eq]
    simp

theorem removeBase_keyword (header : TypeHeader) :
    (removeBase header).keyword = header.keyword := by
  unfold removeBase
  split
  · split
    · split
      · exact modifyNameEnd_keyword _ _
      · rfl
    · rfl
  · rfl

/-- A class is a legacy suite still if it names the base once more. A structure is none. -/
theorem isEligible_converted {header : TypeHeader} (eligible : header.isEligible = true)
    (strategy : Strategy) (hasTeardown : Bool) :
    (header.converted strategy hasTeardown).isEligible = true ↔
      strategy = .reference ∧
        ∃ name ∈ header.remainingNames, legacyBaseNames.contains name = true := by
  rw [TypeHeader.isEligible_iff]
  cases strategy with
  | reference =>
    have keyword := ((header.isEligible_iff).1 eligible).1
    rw [TypeHeader.converted, inheritedNames_removeBase eligible, removeBase_keyword]
    simp only [keyword, true_and]
  | value =>
    have keyword : (header.converted .value hasTeardown).keyword.text = "struct" := by
      cases hasTeardown with
      | false => rfl
      | true => rw [TypeHeader.converted, if_pos rfl, addNoncopyable_keyword]; rfl
    have isNoClass : (header.converted .value hasTeardown).keyword.isKeyword "class" = false := by
      rw [Token.isKeyword, keyword, Bool.and_eq_false_iff]
      exact .inr (by decide)
    simp [isNoClass]

/-! ### The pass -/

/-- No legacy suite is left of the suite: none is nested in it, and a class names the base once. -/
structure LeavesNone (strategy : Strategy) (suite : TypeHeader × CodeBlock) : Prop where
  nested : legacySuites suite.2.types = []
  once : strategy = .reference →
    ∀ name ∈ suite.1.remainingNames, legacyBaseNames.contains name = false

/-- No legacy suite is among the new types just if none is left of any suite among the old ones. -/
def LeftNone (strategy : Strategy) (old new : List (TypeHeader × CodeBlock)) : Prop :=
  legacySuites new = [] ↔ ∀ suite ∈ legacySuites old, LeavesNone strategy suite

theorem LeftNone.nil (strategy : Strategy) : LeftNone strategy [] [] := by
  simp [LeftNone, legacySuites]

theorem LeftNone.append {strategy : Strategy} {old new later newLater}
    (first : LeftNone strategy old new) (second : LeftNone strategy later newLater) :
    LeftNone strategy (old ++ later) (new ++ newLater) := by
  unfold LeftNone legacySuites at *
  rw [List.filter_append, List.filter_append, List.append_eq_nil_iff, first, second,
    List.forall_mem_append]

/-- A converted suite leaves none just if no suite is nested in it and, kept as a class, it does not
name the base again. -/
theorem LeftNone.convertSuite (strategy : Strategy) {header : TypeHeader} (members : CodeBlock)
    (eligible : header.isEligible = true) :
    LeftNone strategy (Decl.type header members).types
      (SuiteMigration.convertSuite strategy header members).types := by
  rw [convertSuite_eq, Decl.types, Decl.types, types_converted]
  have stays_iff := isEligible_converted eligible strategy
    (SuiteContext.ofMembers members).hasTeardown
  unfold LeftNone legacySuites
  rw [List.filter_cons, List.filter_cons, if_pos eligible, List.forall_mem_cons]
  by_cases stays : (header.converted strategy
      (SuiteContext.ofMembers members).hasTeardown).isEligible = true
  · -- The suite itself is left, because it names the base again.
    obtain ⟨isReference, name, member, isBase⟩ := stays_iff.1 stays
    rw [if_pos stays]
    refine iff_of_false (List.cons_ne_nil _ _) fun ⟨own, _⟩ => ?_
    exact absurd isBase (ne_true_of_eq_false (own.once isReference name member))
  · rw [if_neg stays]
    constructor
    · intro nested
      refine ⟨⟨nested, fun isReference name member => ?_⟩, ?_⟩
      · by_contra isBase
        exact stays (stays_iff.2 ⟨isReference, name, member, eq_true_of_ne_false isBase⟩)
      · rw [nested]
        exact List.forall_mem_nil _
    · exact fun ⟨own, _⟩ => own.nested

namespace LeftNone

-- The induction follows the types that are reached through members. Everything else that is
-- transformed declares no type there, whatever becomes of it.
mutual

theorem yields_decl (strategy : Strategy) (decl : Decl) :
    Yields (decl.transform (suiteTransformer strategy)) fun new =>
      LeftNone strategy decl.types new.types := by
  rw [Decl.transform.eq_def]
  match decl with
  | .type header members =>
    simp only [suiteTransformer]
    split
    · rename_i eligible
      exact .after fun _ => .pure (.convertSuite strategy members eligible)
    · rename_i ineligible
      refine (yields_block strategy members).bind fun new left => .pure ?_
      rw [Decl.types, Decl.types, LeftNone, legacySuites, legacySuites, List.filter_cons,
        List.filter_cons, if_neg ineligible, if_neg ineligible]
      exact left
  | .function header body => exact .pure (.nil strategy)
  | .importing decl | .raw decl => exact .pure (.nil strategy)
  | .variable header bindings => exact .after fun _ => .pure (.nil strategy)
  | .initializer header body | .finalizer header body =>
    exact .after fun _ => .pure (.nil strategy)

theorem yields_block (strategy : Strategy) (block : CodeBlock) :
    Yields (block.transform (suiteTransformer strategy)) fun new =>
      LeftNone strategy block.types new.types := by
  obtain ⟨left, statements, right⟩ := block
  refine .after fun _ => (yields_statements strategy statements).bind fun new leftNone => ?_
  exact .after fun _ => .pure leftNone

/-- The suite pass leaves no suite in a list just if none of the suites in it leaves one. -/
theorem yields_statements (strategy : Strategy) (statements : List Statement) :
    Yields (transformStatements (suiteTransformer strategy) statements) fun new =>
      LeftNone strategy (typesOfStatements statements) (typesOfStatements new) := by
  match statements with
  | [] => exact .pure (.nil strategy)
  | statement :: later =>
    have expanded : Yields
        ((suiteTransformer strategy).statement statement
          (statement.transform (suiteTransformer strategy)))
        fun new => LeftNone strategy statement.types (typesOfStatements new) := by
      refine (yields_statement strategy statement).bind fun new left => .pure ?_
      rwa [typesOfStatements, typesOfStatements, List.append_nil]
    refine expanded.bind fun new left => (yields_statements strategy later).bind fun _ laterLeft =>
      .pure ?_
    rw [typesOfStatements, typesOfStatements_append]
    exact left.append laterLeft

theorem yields_statement (strategy : Strategy) (statement : Statement) :
    Yields (statement.transform (suiteTransformer strategy)) fun new =>
      LeftNone strategy statement.types new.types := by
  obtain ⟨item, semicolon⟩ := statement
  exact (yields_item strategy item).bind fun new left => .pure left

theorem yields_item (strategy : Strategy) (item : Item) :
    Yields (item.transform (suiteTransformer strategy)) fun new =>
      LeftNone strategy item.types new.types := by
  match item with
  | .decl decl => exact (yields_decl strategy decl).bind fun _ left => .pure left
  | .raw tokens => exact .pure (.nil strategy)
  | .expr _ | .returning _ _ | .throwing _ _ | .conditional _ | .deferring _ _ =>
    exact .after fun _ => .pure (.nil strategy)
  | .guarding _ _ _ _ | .repeatLoop _ _ _ _ | .doCatch _ _ _ _ | .switching _ _ _ _ _ =>
    exact .after fun _ => .after fun _ => .pure (.nil strategy)
  | .whileLoop _ _ _ =>
    exact .after fun _ => .after fun _ => .after fun _ => .after fun _ => .pure (.nil strategy)
  | .forIn _ _ _ _ _ _ _ _ =>
    exact .after fun _ => .after fun _ => .after fun _ => .after fun _ => .after fun _ =>
      .pure (.nil strategy)

end

end LeftNone

/-- The pass leaves no legacy suite in a file just if none of its suites has another one nested in
it and, where suites stay classes, each names the legacy base once. -/
theorem legacySuites_suitePass_eq_nil_iff (strategy : Strategy) (file : SourceFile) :
    legacySuites ((suitePass strategy).run file).file.types = [] ↔
      ∀ suite ∈ legacySuites file.types, LeavesNone strategy suite :=
  LeftNone.yields_statements strategy file.statements 0

/-- The suite `A` is converted, and the suite `B` among its members stays a legacy suite. -/
theorem legacySuites_suitePass_nested :
    (legacySuites ((suitePass .reference).run
        (.parse "class A: XCTestCase { class B: XCTestCase {} }")).file.types).map
      (fun suite => suite.1.name.text) = ["B"] := by
  decide +kernel

end SuiteMigration
