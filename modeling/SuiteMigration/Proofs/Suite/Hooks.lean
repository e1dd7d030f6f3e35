import SuiteMigration.Proofs.Suite.Lifecycle
import SuiteMigration.Proofs.Suite.Nesting

/-!
# Hooks side by side

A suite may have several hooks before each test, and several after it: one that throws next to one
that does not. They are converted one by one, and none looks at the others. So a suite that begins
without initializers and finalizers ends with as many as it has hooks, and two hooks of one kind
become two initializers without parameters, or two finalizers.

## Main definitions

* `Decl.isInitializer`, `Decl.isBareInitializer` - an initializer, and one without parameters
* `Decl.isSetUpHook` - the hook before each test

## Main results

* `countP_converted` - declarations of a kind that only hooks turn into
* `initializers_of_hooks` - the initializers and finalizers of a converted suite
* `initializers_collide` - a suite that ends with two of each
-/

namespace SuiteMigration

/-- The declaration is an initializer. -/
def Decl.isInitializer : Decl → Bool
  | .initializer _ _ => true
  | _ => false

/-- The declaration is an initializer without parameters. -/
def Decl.isBareInitializer : Decl → Bool
  | .initializer header _ => header.parameters.parameters.isEmpty
  | _ => false

/-- The declaration is the hook before each test. -/
def Decl.isSetUpHook : Decl → Bool
  | .function header _ => header.lifecycle? == some .setUp
  | _ => false

theorem Decl.isBareInitializer_of_not_isInitializer {decl : Decl}
    (other : decl.isInitializer = false) : decl.isBareInitializer = false := by
  cases decl with
  | initializer header body => cases other
  | _ => rfl

theorem isBareInitializer_convertDecl (strategy : Strategy) (context : SuiteContext)
    (decl : Decl) :
    (convertDecl strategy context decl).isBareInitializer =
      (decl.isBareInitializer || decl.isSetUpHook) := by
  cases decl with
  | function header body =>
    simp only [convertDecl, convertFunction, Decl.isBareInitializer, Decl.isSetUpHook]
    cases header.lifecycle? with
    | none => rfl
    | some hook => cases hook <;> rfl
  | initializer header body =>
    -- Other modifiers leave the parameters as they are.
    refine Eq.trans ?_ (Bool.or_false _).symm
    cases strategy <;> rfl
  | _ => rfl

theorem isBareInitializer_markDecl (names : List String) (decl : Decl) :
    (markDecl names decl).isBareInitializer = decl.isBareInitializer := by
  cases decl with
  | function header body =>
    rw [markDecl]
    split <;> rfl
  | _ => rfl

/-- If the conversion makes declarations of a kind of some members only, and no member is of the
kind before, then the converted suite has one for each of these members. -/
theorem countP_converted {kind source : Decl → Bool} (strategy : Strategy) {members : CodeBlock}
    (marked : ∀ names decl, kind (markDecl names decl) = kind decl)
    (converted : ∀ context decl,
      kind (convertDecl strategy context decl) = (kind decl || source decl))
    (fresh : ∀ decl ∈ members.decls, kind decl = false) :
    (members.converted strategy).decls.countP kind = members.decls.countP source := by
  obtain ⟨names, decls_eq⟩ := exists_decls_converted strategy members
  rw [decls_eq, List.countP_map]
  refine List.countP_congr fun decl member => ?_
  rw [Function.comp_apply, Function.comp_apply, marked, converted, fresh decl member,
    Bool.false_or]

/-- A suite without initializers and finalizers gets an initializer without parameters for each of
its hooks before the tests, and a finalizer for each of its hooks after them. -/
theorem initializers_of_hooks (strategy : Strategy) (header : TypeHeader) {members : CodeBlock}
    (noInitializer : ∀ decl ∈ members.decls, decl.isInitializer = false)
    (noFinalizer : ∀ decl ∈ members.decls, decl.isFinalizer = false) :
    ∃ newHeader newMembers,
      convertSuite strategy header members = .type newHeader newMembers ∧
      newMembers.decls.countP Decl.isBareInitializer = members.decls.countP Decl.isSetUpHook ∧
      newMembers.decls.countP Decl.isFinalizer = members.decls.countP Decl.isTeardownHook := by
  rw [convertSuite_eq]
  refine ⟨_, _, rfl, ?_, ?_⟩
  · refine countP_converted strategy isBareInitializer_markDecl
      (isBareInitializer_convertDecl strategy) fun decl member => ?_
    exact Decl.isBareInitializer_of_not_isInitializer (noInitializer decl member)
  · exact countP_converted strategy isFinalizer_markDecl (isFinalizer_convertDecl strategy)
      noFinalizer

/-- In the suite `A` each of the two hooks stands alone. -/
theorem initializers_of_hooks_single :
    let file := SourceFile.parse
      "class A: XCTestCase \x7b func setUp() \x7b\x7d; func tearDown() \x7b\x7d \x7d"
    file.types.length = 1 ∧ ∀ suite ∈ file.types, ∃ newHeader newMembers,
      convertSuite .value suite.1 suite.2 = .type newHeader newMembers ∧
      newMembers.decls.countP Decl.isBareInitializer = 1 ∧
      newMembers.decls.countP Decl.isFinalizer = 1 := by
  intro file
  have facts : file.types.length = 1 ∧ ∀ suite ∈ file.types,
      (∀ decl ∈ suite.2.decls, decl.isInitializer = false) ∧
      (∀ decl ∈ suite.2.decls, decl.isFinalizer = false) ∧
      suite.2.decls.countP Decl.isSetUpHook = 1 ∧
      suite.2.decls.countP Decl.isTeardownHook = 1 := by
    decide +kernel
  refine ⟨facts.1, fun suite member => ?_⟩
  obtain ⟨noInitializer, noFinalizer, setUp, tearDown⟩ := facts.2 suite member
  obtain ⟨newHeader, newMembers, converts, initializers, finalizers⟩ :=
    initializers_of_hooks .value suite.1 noInitializer noFinalizer
  exact ⟨newHeader, newMembers, converts, initializers.trans setUp, finalizers.trans tearDown⟩

/-- The suite `A` has no initializer and no finalizer. Its two hooks before the tests become two
initializers without parameters, and its two hooks after them become two finalizers. -/
theorem initializers_collide :
    let file := SourceFile.parse ("class A: XCTestCase \x7b " ++
      "func setUp() \x7b\x7d; func setUpWithError() \x7b\x7d; " ++
      "func tearDown() \x7b\x7d; func tearDownWithError() \x7b\x7d \x7d")
    ((legacySuites file.types).map fun suite =>
      (suite.2.decls.countP Decl.isInitializer, suite.2.decls.countP Decl.isFinalizer)) =
        [(0, 0)] ∧
    (((suitePass .reference).run file).file.types.map fun suite =>
      (suite.2.decls.countP Decl.isBareInitializer, suite.2.decls.countP Decl.isFinalizer)) =
        [(2, 2)] := by
  decide +kernel

end SuiteMigration
