import SuiteMigration.Proofs.Suite.Inheritance

/-!
# Finalizers of a suite

A structure may have a finalizer only with the constraint `~Copyable`. Whether a suite gets the
constraint is decided by the names of its members before the conversion, and whether it gets a
finalizer by the conversion of each member, which also looks at parameters and at modifiers. The two
tests agree on all members but one kind: a method that has the name of the hook after each test but
belongs to the type or has parameters. Such a method is idle, and brings the constraint alone.

## Main definitions

* `Decl.isFinalizer`, `CodeBlock.hasFinalizer` - a finalizer among the members
* `Decl.isIdleTeardown` - a method that has the name of the hook and is not run as one

## Main results

* `hasFinalizer_converted` - the finalizers of a converted suite
* `hasTeardown_eq` - the members that bring the constraint
* `noncopyable_convertSuite_iff` - when a converted suite names the constraint
* `noncopyable_without_finalizer` - a suite with the constraint and no finalizer
-/

namespace SuiteMigration

/-! ### Members after the conversion -/

/-- Changing the declaration in every member changes the declarations of the body one by one. -/
theorem decls_map_statements {change : Statement → Statement} {view : Decl → Decl}
    (same : ∀ statement : Statement, (change statement).decl? = statement.decl?.map view)
    (members : CodeBlock) :
    CodeBlock.decls { members with statements := members.statements.map change } =
      members.decls.map view := by
  have statements_eq : Statement.decl? ∘ change = fun statement => statement.decl?.map view :=
    funext same
  rw [CodeBlock.decls, CodeBlock.decls, List.filterMap_map, statements_eq, List.map_filterMap]

/-- A converted member holds the converted declaration. -/
theorem decl?_convertMember (strategy : Strategy) (context : SuiteContext)
    (statement : Statement) :
    (convertMember strategy context statement).decl? =
      statement.decl?.map (convertDecl strategy context) := by
  obtain ⟨item, semicolon⟩ := statement
  cases item <;> rfl

/-- A declaration with the mark `mutating`, if it is an instance method with one of the names. -/
def markDecl (names : List String) : Decl → Decl
  | .function header body =>
    if names.contains header.name.text && !header.hasModifier "mutating" &&
        !isTypeLevel header.modifiers then
      .function header.withMutating body
    else .function header body
  | decl => decl

/-- A marked member holds the marked declaration. -/
theorem decl?_markMember (names : List String) (statement : Statement) :
    (markMember names statement).decl? = statement.decl?.map (markDecl names) := by
  obtain ⟨item, semicolon⟩ := statement
  cases item with
  | decl decl =>
    cases decl with
    | function header body =>
      simp only [markMember, markDecl, Statement.decl?, Option.map_some]
      by_cases needed : (names.contains header.name.text && !header.hasModifier "mutating" &&
          !isTypeLevel header.modifiers) = true
      · rw [if_pos needed, if_pos needed]
      · rw [if_neg needed, if_neg needed]
    | _ => rfl
  | _ => rfl

theorem markDecl_nil (decl : Decl) : markDecl [] decl = decl := by
  cases decl <;> rfl

/-- The declarations of a converted suite are made one by one from those of the suite. -/
theorem exists_decls_converted (strategy : Strategy) (members : CodeBlock) :
    ∃ names, (members.converted strategy).decls =
      members.decls.map
        (markDecl names ∘ convertDecl strategy (SuiteContext.ofMembers members)) := by
  have converted := decls_map_statements
    (decl?_convertMember strategy (SuiteContext.ofMembers members)) members
  cases strategy with
  | reference =>
    refine ⟨[], converted.trans ?_⟩
    rw [show markDecl [] = id from funext markDecl_nil, Function.id_comp]
  | value =>
    obtain ⟨names, marked⟩ : ∃ names, (members.converted .value).decls =
        (CodeBlock.decls { members with
          statements := members.statements.map
            (convertMember .value (SuiteContext.ofMembers members)) }).map (markDecl names) :=
      ⟨_, decls_map_statements (decl?_markMember _) _⟩
    refine ⟨names, ?_⟩
    rw [marked, converted, List.map_map]

/-! ### Finalizers -/

/-- The declaration is a finalizer. -/
def Decl.isFinalizer : Decl → Bool
  | .finalizer _ _ => true
  | _ => false

/-- A finalizer is among the members. -/
def CodeBlock.hasFinalizer (members : CodeBlock) : Bool :=
  members.decls.any Decl.isFinalizer

/-- The declaration is the hook after each test. -/
def Decl.isTeardownHook : Decl → Bool
  | .function header _ => header.lifecycle? == some .tearDown
  | _ => false

/-- A converted declaration is a finalizer if it was one before or was a hook that tears down. -/
theorem isFinalizer_convertDecl (strategy : Strategy) (context : SuiteContext) (decl : Decl) :
    (convertDecl strategy context decl).isFinalizer =
      (decl.isFinalizer || decl.isTeardownHook) := by
  cases decl with
  | function header body =>
    simp only [convertDecl, convertFunction, Decl.isTeardownHook]
    cases header.lifecycle? with
    | none => rfl
    | some hook => cases hook <;> rfl
  | _ => rfl

/-- Marking makes no finalizer. -/
theorem isFinalizer_markDecl (names : List String) (decl : Decl) :
    (markDecl names decl).isFinalizer = decl.isFinalizer := by
  cases decl with
  | function header body =>
    rw [markDecl]
    split <;> rfl
  | _ => rfl

/-- A suite gets a finalizer for each hook after the tests, and keeps those it has. -/
theorem hasFinalizer_converted (strategy : Strategy) (members : CodeBlock) :
    (members.converted strategy).hasFinalizer =
      members.decls.any fun decl => decl.isFinalizer || decl.isTeardownHook := by
  obtain ⟨names, decls_eq⟩ := exists_decls_converted strategy members
  rw [CodeBlock.hasFinalizer, decls_eq, List.any_map]
  refine congrArg members.decls.any (funext fun decl => ?_)
  exact (isFinalizer_markDecl names _).trans (isFinalizer_convertDecl strategy _ decl)

/-! ### What brings the constraint -/

/-- The declaration has the name of the hook after each test but is not run as one, because it
belongs to the type or has parameters. -/
def Decl.isIdleTeardown : Decl → Bool
  | .function header _ =>
    tearDownNames.contains header.name.text &&
      (!header.parameters.parameters.isEmpty || isTypeLevel header.modifiers)
  | _ => false

theorem any_or {α : Type} (values : List α) (first second : α → Bool) :
    (values.any fun value => first value || second value) =
      (values.any first || values.any second) := by
  rw [Bool.eq_iff_iff]
  simp only [List.any_eq_true, Bool.or_eq_true, and_or_left, exists_or]

theorem isTypeLevel_eq (header : FunctionHeader) :
    isTypeLevel header.modifiers = (header.hasModifier "class" || header.hasModifier "static") := by
  rw [isTypeLevel, any_or, Bool.or_comm]
  rfl

/-- No name is among the hooks of both kinds. -/
theorem not_isSetUp_of_isTearDown {name : String} (named : tearDownNames.contains name = true) :
    setUpNames.contains name = false := by
  have known : name = "tearDown" ∨ name = "tearDownWithError" := by
    simpa [tearDownNames] using named
  rcases known with rfl | rfl <;> rfl

/-- A hook tears down if it has one of the names, no parameters, and belongs to an instance. -/
theorem lifecycle?_eq_tearDown (header : FunctionHeader) :
    (header.lifecycle? == some .tearDown) =
      (tearDownNames.contains header.name.text &&
        !(!header.parameters.parameters.isEmpty || isTypeLevel header.modifiers)) := by
  rw [isTypeLevel_eq, ← Bool.or_assoc]
  unfold FunctionHeader.lifecycle?
  by_cases idle : (!header.parameters.parameters.isEmpty || header.hasModifier "class" ||
      header.hasModifier "static") = true
  · -- The name does not matter then.
    rw [if_pos idle, idle]
    simp
  · rw [if_neg idle, eq_false_of_ne_true idle]
    by_cases named : tearDownNames.contains header.name.text = true
    · rw [not_isSetUp_of_isTearDown named, named]
      rfl
    · rw [eq_false_of_ne_true named]
      cases setUpNames.contains header.name.text <;> rfl

/-- The test by names counts the idle methods with the hooks. -/
theorem isTeardown_eq (decl : Decl) :
    decl.isTeardown = ((decl.isFinalizer || decl.isTeardownHook) || decl.isIdleTeardown) := by
  cases decl with
  | function header body =>
    simp only [Decl.isTeardown, Decl.isFinalizer, Decl.isTeardownHook, Decl.isIdleTeardown,
      Bool.false_or]
    rw [lifecycle?_eq_tearDown, ← Bool.and_or_distrib_left, Bool.not_or_self, Bool.and_true]
  | _ => rfl

/-- A suite has a teardown if it is left with a finalizer, or has a method of that name that is no
hook. -/
theorem hasTeardown_eq (strategy : Strategy) (members : CodeBlock) :
    (SuiteContext.ofMembers members).hasTeardown =
      ((members.converted strategy).hasFinalizer || members.decls.any Decl.isIdleTeardown) := by
  rw [hasFinalizer_converted, ← any_or]
  exact congrArg members.decls.any (funext isTeardown_eq)

/-- A converted header names the marker if it did before, or as a struct with a teardown. -/
theorem noncopyable_mem_converted {header : TypeHeader} (eligible : header.isEligible = true)
    (hasTeardown : Bool) :
    noncopyable ∈ (header.converted .value hasTeardown).inheritedNames ↔
      noncopyable ∈ header.inheritedNames ∨ hasTeardown = true := by
  rw [inheritedNames_converted eligible, ← header.noncopyable_mem_remainingNames]
  by_cases named : noncopyable ∈ header.remainingNames
  · simp [named]
  · simp [named]

/-- A structure that is made of a suite without the constraint names it just when it has a finalizer
or the suite had an idle method. -/
theorem noncopyable_convertSuite_iff {header : TypeHeader} (members : CodeBlock)
    (eligible : header.isEligible = true) (fresh : noncopyable ∉ header.inheritedNames) :
    ∃ newHeader newMembers,
      convertSuite .value header members = .type newHeader newMembers ∧
      (noncopyable ∈ newHeader.inheritedNames ↔
        newMembers.hasFinalizer = true ∨
          ∃ decl ∈ members.decls, decl.isIdleTeardown = true) := by
  rw [convertSuite_eq]
  refine ⟨_, _, rfl, ?_⟩
  rw [noncopyable_mem_converted eligible, hasTeardown_eq .value, Bool.or_eq_true, List.any_eq_true]
  exact or_iff_right fresh

/-- In `class A: XCTestCase { func tearDown() }` the method becomes a finalizer. -/
theorem noncopyable_convertSuite_hook :
    let header : TypeHeader :=
      { attributes := [], modifiers := [], keyword := .ofName "class", name := .ofName "A"
        genericParameters := []
        inheritance := some
          { colon := .ofPunctuation ':'
            types := [{ tokens := [.ofName "XCTestCase"], comma := none }] }
        whereClause := [] }
    let hook : FunctionHeader :=
      { attributes := [], modifiers := [], keyword := .ofName "func", name := .ofName "tearDown"
        genericParameters := []
        parameters :=
          { leftParen := .ofPunctuation '(', parameters := [], rightParen := .ofPunctuation ')' }
        signature := [] }
    let members : CodeBlock :=
      { leftBrace := .ofPunctuation '\x7b', statements := [.ofItem (.decl (.function hook none))]
        rightBrace := .ofPunctuation '\x7d' }
    header.isEligible = true ∧ noncopyable ∉ header.inheritedNames ∧
    ∃ newHeader newMembers,
      convertSuite .value header members = .type newHeader newMembers ∧
      (noncopyable ∈ newHeader.inheritedNames ↔
        newMembers.hasFinalizer = true ∨
          ∃ decl ∈ members.decls, decl.isIdleTeardown = true) := by
  intro header hook members
  have eligible : header.isEligible = true := by decide +kernel
  have fresh : noncopyable ∉ header.inheritedNames := by decide +kernel
  exact ⟨eligible, fresh, noncopyable_convertSuite_iff members eligible fresh⟩

/-- In `class A: XCTestCase { class func tearDown() }` the method belongs to the type. The structure
gets the constraint for its name, and no finalizer. -/
theorem noncopyable_without_finalizer :
    let header : TypeHeader :=
      { attributes := [], modifiers := [], keyword := .ofName "class", name := .ofName "A"
        genericParameters := []
        inheritance := some
          { colon := .ofPunctuation ':'
            types := [{ tokens := [.ofName "XCTestCase"], comma := none }] }
        whereClause := [] }
    let idle : FunctionHeader :=
      { attributes := [], modifiers := [.ofName "class"], keyword := .ofName "func"
        name := .ofName "tearDown", genericParameters := []
        parameters :=
          { leftParen := .ofPunctuation '(', parameters := [], rightParen := .ofPunctuation ')' }
        signature := [] }
    let members : CodeBlock :=
      { leftBrace := .ofPunctuation '\x7b', statements := [.ofItem (.decl (.function idle none))]
        rightBrace := .ofPunctuation '\x7d' }
    header.isEligible = true ∧ noncopyable ∉ header.inheritedNames ∧
    ∃ newHeader newMembers,
      convertSuite .value header members = .type newHeader newMembers ∧
      noncopyable ∈ newHeader.inheritedNames ∧ newMembers.hasFinalizer = false :=
  ⟨by decide +kernel, by decide +kernel, _, _, rfl, by decide +kernel, by decide +kernel⟩

end SuiteMigration
