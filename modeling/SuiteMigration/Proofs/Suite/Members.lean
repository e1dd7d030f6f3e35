import Mathlib.Data.List.Forall2
import SuiteMigration.Proofs.Tree.Ends
import SuiteMigration.Proofs.Tree.Lenses
import SuiteMigration.Suite.Conversion

/-!
# The members of a suite

The conversion of a suite drops modifiers, puts attributes and marks in front of others, makes other
declarations of the hooks and takes a type from the inheritance clause. Each of these edits takes
trivia from one token and puts them on another one. They all keep the trivia before a declaration,
which stand on its first attribute, on its first modifier or on its keyword. So the members stay
where they are, with the comments and the blank lines above them.

## Main definitions

* `frontTrivia` - the trivia before a declaration
* `FunctionHeader.InPlace`, `TypeHeader.InPlace` - two headers of one declaration, with the same
  trivia before them
* `Decl.Becomes`, `Statement.InPlace` - what the conversion may make of a member

## Main results

* `frontTrivia_filterModifiers`, `FunctionHeader.inPlace_withTestMark`,
  `FunctionHeader.inPlace_withMutating` - the edits of a header
* `Statement.inPlace_convertMember`, `Statement.InPlace.markMember` - the two changes of a member
* `convertSuite_eq` - the header and the members of a converted suite
* `members_stay_in_place` - the converted suite, member by member
-/

namespace SuiteMigration

/-! ### The trivia before a declaration -/

/-- The trivia before a declaration that begins with the given attributes, modifiers and keyword. -/
def frontTrivia (attributes : List Attribute) (modifiers : List Modifier) (keyword : Token) :
    Trivia :=
  match attributes, modifiers with
  | first :: _, _ => first.atSign.leading
  | [], first :: _ => first.name.leading
  | [], [] => keyword.leading

/-- The first of two parts starts them, if it has a token. -/
theorem startTrivia_append_of_eq {first : List Token} {front : Trivia}
    (start : startTrivia first = some front) (second : List Token) :
    startTrivia (first ++ second) = some front := by
  rw [startTrivia_append, start, Option.some_or]

/-- A declaration starts with its attributes, its modifiers or its keyword. -/
theorem startTrivia_front (attributes : List Attribute) (modifiers : List Modifier)
    (keyword : Token) (rest : List Token) :
    startTrivia (Node.tokens attributes ++ Node.tokens modifiers ++ keyword :: rest) =
      some (frontTrivia attributes modifiers keyword) := by
  cases attributes with
  | cons first later => rfl
  | nil => cases modifiers <;> rfl

namespace Decl

theorem startTrivia_type (header : TypeHeader) (members : CodeBlock) :
    startTrivia (Decl.type header members).tokens =
      some (frontTrivia header.attributes header.modifiers header.keyword) := by
  refine startTrivia_append_of_eq ?_ _
  refine startTrivia_append_of_eq (startTrivia_append_of_eq ?_ _) _
  exact startTrivia_front ..

theorem startTrivia_function (header : FunctionHeader) (body : Option CodeBlock) :
    startTrivia (Decl.function header body).tokens =
      some (frontTrivia header.attributes header.modifiers header.keyword) := by
  refine startTrivia_append_of_eq ?_ _
  refine startTrivia_append_of_eq (startTrivia_append_of_eq ?_ _) _
  exact startTrivia_front ..

theorem startTrivia_initializer (header : InitializerHeader) (body : Option CodeBlock) :
    startTrivia (Decl.initializer header body).tokens =
      some (frontTrivia header.attributes header.modifiers header.keyword) := by
  refine startTrivia_append_of_eq ?_ _
  refine startTrivia_append_of_eq (startTrivia_append_of_eq (startTrivia_append_of_eq ?_ _) _) _
  exact startTrivia_front ..

theorem startTrivia_finalizer (header : KeywordHeader) (body : Option CodeBlock) :
    startTrivia (Decl.finalizer header body).tokens =
      some (frontTrivia header.attributes header.modifiers header.keyword) :=
  startTrivia_append_of_eq (startTrivia_front ..) _

theorem startTrivia_variable (header : KeywordHeader) (bindings : List PatternBinding) :
    startTrivia (Decl.variable header bindings).tokens =
      some (frontTrivia header.attributes header.modifiers header.keyword) :=
  startTrivia_append_of_eq (startTrivia_front ..) _

end Decl

/-! ### Edits of a header -/

/-- What is dropped in front hands its trivia on, to the first modifier that is kept or to the token
behind the modifiers. -/
theorem frontTrivia_dropModifiers (drops : Modifier → Bool) (pending : Option Trivia)
    (modifiers : List Modifier) (next : Token) :
    frontTrivia [] (dropModifiers drops pending modifiers).1
        (next.withLeading ((dropModifiers drops pending modifiers).2.getD next.leading)) =
      pending.getD (frontTrivia [] modifiers next) := by
  induction modifiers generalizing pending with
  | nil => rfl
  | cons modifier later ih =>
    by_cases dropped : drops modifier = true
    · rw [dropModifiers, if_pos dropped, ih]
      rfl
    · rw [dropModifiers, if_neg dropped]
      rfl

/-- Leaving out modifiers keeps the trivia in front. -/
theorem frontTrivia_filterModifiers (drops : Modifier → Bool) (attributes : List Attribute)
    (modifiers : List Modifier) (next : Token) :
    frontTrivia attributes (filterModifiers drops modifiers next).1
        (filterModifiers drops modifiers next).2 =
      frontTrivia attributes modifiers next := by
  cases attributes with
  | cons first later => rfl
  | nil => exact frontTrivia_dropModifiers drops none modifiers next

/-- Only the trivia of the keyword matter. -/
theorem frontTrivia_congr (attributes : List Attribute) (modifiers : List Modifier)
    {first second : Token} (same : first.leading = second.leading) :
    frontTrivia attributes modifiers first = frontTrivia attributes modifiers second := by
  cases attributes with
  | cons mark later => rfl
  | nil =>
    cases modifiers with
    | nil => exact same
    | cons modifier later => rfl

theorem filterModifiers_all (modifiers : List Modifier) (next : Token) :
    (filterModifiers (fun _ => true) modifiers next).1 = [] := by
  have none_left (pending : Option Trivia) :
      (dropModifiers (fun _ => true) pending modifiers).1 = [] := by
    induction modifiers generalizing pending with
    | nil => rfl
    | cons modifier later ih => exact ih _
  exact none_left none

/-- So does writing `static` for `class`. -/
theorem frontTrivia_staticForClass (attributes : List Attribute) (modifiers : List Modifier)
    (keyword : Token) :
    frontTrivia attributes (modifiers.map Modifier.staticForClass) keyword =
      frontTrivia attributes modifiers keyword := by
  cases attributes with
  | cons first later => rfl
  | nil =>
    cases modifiers with
    | nil => rfl
    | cons first later =>
      show first.staticForClass.name.leading = first.name.leading
      unfold Modifier.staticForClass
      split <;> rfl

/-! ### Headers of functions -/

/-- Two headers of one function: they differ in attributes, modifiers and the trivia of the keyword,
and have the same trivia before them. -/
structure FunctionHeader.InPlace (old new : FunctionHeader) : Prop where
  same : ∃ attributes modifiers keyword, new = { old with attributes, modifiers, keyword }
  front : frontTrivia new.attributes new.modifiers new.keyword =
    frontTrivia old.attributes old.modifiers old.keyword

namespace FunctionHeader

theorem InPlace.refl (header : FunctionHeader) : header.InPlace header :=
  ⟨⟨_, _, _, rfl⟩, rfl⟩

theorem InPlace.trans {old middle new : FunctionHeader} (first : old.InPlace middle)
    (second : middle.InPlace new) : old.InPlace new := by
  obtain ⟨⟨_, _, _, rfl⟩, firstFront⟩ := first
  obtain ⟨⟨attributes, modifiers, keyword, rfl⟩, secondFront⟩ := second
  exact ⟨⟨attributes, modifiers, keyword, rfl⟩, secondFront.trans firstFront⟩

theorem InPlace.ite {old new other : FunctionHeader} (condition : Prop) [Decidable condition]
    (first : old.InPlace new) (second : old.InPlace other) :
    old.InPlace (if condition then new else other) := by
  split
  · exact first
  · exact second

/-- A function for a value type stands in the place of the old one. -/
theorem inPlace_forValueType (header : FunctionHeader) : header.InPlace header.forValueType where
  same := ⟨_, _, _, rfl⟩
  front := by
    unfold forValueType
    rw [frontTrivia_staticForClass, frontTrivia_filterModifiers]

/-- The attribute stands behind the others, or takes over the trivia of what it is put before. -/
theorem inPlace_withTestMark (header : FunctionHeader) : header.InPlace header.withTestMark := by
  obtain ⟨attributes, modifiers, keyword, name, generic, parameters, signature⟩ := header
  cases modifiers with
  | nil => cases attributes <;> exact ⟨⟨_, _, _, rfl⟩, rfl⟩
  | cons first later => cases attributes <;> exact ⟨⟨_, _, _, rfl⟩, rfl⟩

/-- The mark stands behind the other modifiers, or takes over the trivia of the keyword. -/
theorem inPlace_withMutating (header : FunctionHeader) : header.InPlace header.withMutating where
  same := ⟨_, _, _, rfl⟩
  front := by
    obtain ⟨attributes, modifiers, keyword, name, generic, parameters, signature⟩ := header
    cases attributes with
    | cons first later => rfl
    | nil => cases modifiers <;> rfl

end FunctionHeader

/-! ### Members -/

/-- What the conversion may make of a declaration among the members: a method stays the method it is
or, if it is a hook, becomes an initializer or a finalizer. Variables and initializers may lose
modifiers, and everything else stays as it is. -/
inductive Decl.Becomes : Decl → Decl → Prop
  | same (decl : Decl) : Becomes decl decl
  | method {old new : FunctionHeader} {body newBody : Option CodeBlock} :
    old.InPlace new → Becomes (.function old body) (.function new newBody)
  | setUp {old : FunctionHeader} {body newBody : Option CodeBlock} {new : InitializerHeader} :
    old.lifecycle? = some .setUp →
    frontTrivia new.attributes new.modifiers new.keyword =
      frontTrivia old.attributes old.modifiers old.keyword →
    Becomes (.function old body) (.initializer new newBody)
  | tearDown {old : FunctionHeader} {body newBody : Option CodeBlock} {new : KeywordHeader} :
    old.lifecycle? = some .tearDown →
    frontTrivia new.attributes new.modifiers new.keyword =
      frontTrivia old.attributes old.modifiers old.keyword →
    Becomes (.function old body) (.finalizer new newBody)
  | properties {old : KeywordHeader} {bindings : List PatternBinding} {modifiers : List Modifier}
    {keyword : Token} :
    frontTrivia old.attributes modifiers keyword =
      frontTrivia old.attributes old.modifiers old.keyword →
    Becomes (.variable old bindings) (.variable { old with modifiers, keyword } bindings)
  | initializer {old : InitializerHeader} {body : Option CodeBlock} {modifiers : List Modifier}
    {keyword : Token} :
    frontTrivia old.attributes modifiers keyword =
      frontTrivia old.attributes old.modifiers old.keyword →
    Becomes (.initializer old body) (.initializer { old with modifiers, keyword } body)

namespace Decl

/-- What a declaration becomes starts with the same trivia. -/
theorem Becomes.startTrivia_eq {old new : Decl} (becomes : old.Becomes new) :
    startTrivia new.tokens = startTrivia old.tokens := by
  cases becomes with
  | same => rfl
  | method inPlace => rw [startTrivia_function, startTrivia_function, inPlace.front]
  | setUp hook front => rw [startTrivia_initializer, startTrivia_function, front]
  | tearDown hook front => rw [startTrivia_finalizer, startTrivia_function, front]
  | properties front => rw [startTrivia_variable, startTrivia_variable, front]
  | initializer front => rw [startTrivia_initializer, startTrivia_initializer, front]

/-- A hook that runs before each test becomes an initializer in its place. -/
theorem becomes_toInitializer {header : FunctionHeader} (hook : header.lifecycle? = some .setUp)
    (body : Option CodeBlock) :
    (Decl.function header body).Becomes (toInitializer header body) := by
  refine .setUp hook ?_
  exact (frontTrivia_congr _ _ rfl).trans (frontTrivia_filterModifiers ..)

/-- A hook that runs after each test becomes a finalizer in its place. -/
theorem becomes_toFinalizer {header : FunctionHeader} (hook : header.lifecycle? = some .tearDown)
    (body : Option CodeBlock) :
    (Decl.function header body).Becomes (toFinalizer header body) := by
  refine .tearDown hook ?_
  -- The finalizer has no modifiers, and so all of them are dropped.
  rw [← frontTrivia_filterModifiers (fun _ => true) header.attributes header.modifiers,
    filterModifiers_all]
  exact frontTrivia_congr _ _ rfl

/-- Every function becomes a function, an initializer or a finalizer in its place. -/
theorem becomes_convertFunction (strategy : Strategy) (context : SuiteContext)
    (header : FunctionHeader) (body : Option CodeBlock) :
    (Decl.function header body).Becomes (convertFunction strategy context header body) := by
  unfold convertFunction
  split
  · exact becomes_toInitializer ‹_› body
  · exact becomes_toFinalizer ‹_› body
  · have typed : header.InPlace (if strategy = .value then header.forValueType else header) :=
      .ite _ header.inPlace_forValueType (.refl header)
    refine .method (typed.trans ?_)
    exact .ite _ (FunctionHeader.inPlace_withTestMark _) (.refl _)

/-- Every declaration is converted in its place. -/
theorem becomes_convertDecl (strategy : Strategy) (context : SuiteContext) (decl : Decl) :
    decl.Becomes (convertDecl strategy context decl) := by
  match decl, strategy with
  | .function header body, strategy => exact becomes_convertFunction strategy context header body
  | .variable header bindings, .value =>
    refine .properties ?_
    exact (frontTrivia_staticForClass ..).trans (frontTrivia_filterModifiers ..)
  | .initializer header body, .value => exact .initializer (frontTrivia_filterModifiers ..)
  | .variable _ _, .reference | .initializer _ _, .reference => exact .same _
  | .importing _, _ | .type _ _, _ | .finalizer _ _, _ | .raw _, _ => exact .same _

/-- The mark `mutating` is put on what has become of a method. -/
theorem Becomes.withMutating {old : Decl} {header : FunctionHeader} {body : Option CodeBlock}
    (becomes : old.Becomes (.function header body)) :
    old.Becomes (.function header.withMutating body) := by
  cases becomes with
  | same => exact .method header.inPlace_withMutating
  | method inPlace => exact .method (inPlace.trans header.inPlace_withMutating)

end Decl

/-- The new statement is the same or declares what becomes of the old declaration. -/
inductive Item.Becomes : Item → Item → Prop
  | same (item : Item) : Becomes item item
  | decl {old new : Decl} : old.Becomes new → Becomes (.decl old) (.decl new)

/-- The new member stands where the old one stood: it is what becomes of it, behind the same trivia
and before the same semicolon. -/
structure Statement.InPlace (old new : Statement) : Prop where
  becomes : old.item.Becomes new.item
  leading : Node.leading new = Node.leading old
  semicolon : new.semicolon = old.semicolon

namespace Statement

theorem InPlace.refl (statement : Statement) : statement.InPlace statement :=
  ⟨.same _, rfl, rfl⟩

/-- A declaration begins with a token, so the trivia before it are those before its statement. -/
theorem InPlace.of_decl {old new : Decl} (becomes : old.Becomes new) (semicolon : Option Token) :
    Statement.InPlace ⟨.decl old, semicolon⟩ ⟨.decl new, semicolon⟩ where
  becomes := .decl becomes
  leading := by
    have start : startTrivia (new.tokens ++ Node.tokens semicolon) =
        startTrivia (old.tokens ++ Node.tokens semicolon) := by
      rw [startTrivia_append, startTrivia_append, becomes.startTrivia_eq]
    rw [Node.leading_eq, Node.leading_eq]
    exact congrArg (Option.getD · "") start
  semicolon := rfl

/-- Every member is converted in its place. -/
theorem inPlace_convertMember (strategy : Strategy) (context : SuiteContext)
    (statement : Statement) : statement.InPlace (convertMember strategy context statement) := by
  obtain ⟨item, semicolon⟩ := statement
  cases item with
  | decl decl => exact .of_decl (Decl.becomes_convertDecl strategy context decl) semicolon
  | _ => exact .refl _

/-- Marking a converted member leaves it in the place of the member it was made of. -/
theorem InPlace.markMember {old new : Statement} (inPlace : old.InPlace new)
    (names : List String) : old.InPlace (markMember names new) := by
  unfold SuiteMigration.markMember
  split
  · rename_i header body item_eq
    split
    · -- The mark goes on top of what the conversion has done to the method.
      obtain ⟨oldItem, oldSemicolon⟩ := old
      obtain ⟨newItem, newSemicolon⟩ := new
      obtain rfl : newItem = .decl (.function header body) := item_eq
      obtain ⟨becomes, -, rfl⟩ := inPlace
      cases becomes with
      | same => exact .of_decl (Decl.Becomes.same _).withMutating _
      | decl becomes => exact .of_decl becomes.withMutating _
    · exact inPlace
  · exact inPlace

end Statement

/-! ### Headers of suites -/

/-- Two headers of one type: they differ in modifiers, keyword and inheritance clause, and in the
trivia around the name, and have the same trivia before them. -/
structure TypeHeader.InPlace (old new : TypeHeader) : Prop where
  front : frontTrivia new.attributes new.modifiers new.keyword =
    frontTrivia old.attributes old.modifiers old.keyword
  attributes : new.attributes = old.attributes
  name : new.name.text = old.name.text
  genericParameters : new.genericParameters.map Token.text =
    old.genericParameters.map Token.text
  whereClause : new.whereClause = old.whereClause

namespace TypeHeader

theorem InPlace.refl (header : TypeHeader) : header.InPlace header :=
  ⟨rfl, rfl, rfl, rfl, rfl⟩

theorem InPlace.trans {old middle new : TypeHeader} (first : old.InPlace middle)
    (second : middle.InPlace new) : old.InPlace new where
  front := second.front.trans first.front
  attributes := second.attributes.trans first.attributes
  name := second.name.trans first.name
  genericParameters := second.genericParameters.trans first.genericParameters
  whereClause := second.whereClause.trans first.whereClause

/-- With another inheritance clause the type is the same. -/
theorem inPlace_inheritance (header : TypeHeader) (inheritance : Option InheritanceClause) :
    header.InPlace { header with inheritance } :=
  ⟨rfl, rfl, rfl, rfl, rfl⟩

/-- The token before the inheritance clause keeps its text when only its trivia change. -/
theorem inPlace_modifyNameEnd (header : TypeHeader) {change : Token → Token}
    (sameText : ∀ token, (change token).text = token.text) :
    header.InPlace (header.modifyNameEnd change) := by
  unfold modifyNameEnd
  split
  · exact ⟨rfl, rfl, sameText _, rfl, rfl⟩
  · exact ⟨rfl, rfl, rfl, map_modifyLast sameText _, rfl⟩

/-- Removing the base leaves the rest of a header in place. -/
theorem inPlace_removeBase (header : TypeHeader) : header.InPlace (removeBase header) := by
  unfold removeBase
  split
  · split
    · split
      · exact (header.inPlace_inheritance _).trans (inPlace_modifyNameEnd _ fun _ => rfl)
      · exact header.inPlace_inheritance _
    · exact .refl header
  · exact .refl header

/-- Writing `struct` for `class` leaves the rest of a header in place. -/
theorem inPlace_toStruct (header : TypeHeader) : header.InPlace header.toStruct where
  front := (frontTrivia_congr _ _ rfl).trans (frontTrivia_filterModifiers ..)
  attributes := rfl
  name := rfl
  genericParameters := rfl
  whereClause := rfl

/-- Adding the mark leaves the rest of a header in place. -/
theorem inPlace_addNoncopyable (header : TypeHeader) :
    header.InPlace (addNoncopyable header) := by
  unfold addNoncopyable
  split
  · exact .refl header
  · split
    · exact header.inPlace_inheritance _
    · exact (header.inPlace_inheritance _).trans (inPlace_modifyNameEnd _ fun _ => rfl)

end TypeHeader

/-! ### Suites -/

/-- The header of a suite after the conversion. -/
def TypeHeader.converted (strategy : Strategy) (hasTeardown : Bool) (header : TypeHeader) :
    TypeHeader :=
  match strategy with
  | .reference => removeBase header
  | .value =>
    if hasTeardown then addNoncopyable (removeBase header).toStruct
    else (removeBase header).toStruct

/-- The members of a suite after the conversion. -/
def CodeBlock.converted (strategy : Strategy) (members : CodeBlock) : CodeBlock :=
  let context := SuiteContext.ofMembers members
  let converted :=
    { members with statements := members.statements.map (convertMember strategy context) }
  match strategy with
  | .reference => converted
  | .value => markMutating context.symbols converted

/-- A suite is converted by its header and by its members. -/
theorem convertSuite_eq (strategy : Strategy) (header : TypeHeader) (members : CodeBlock) :
    convertSuite strategy header members =
      .type (header.converted strategy (SuiteContext.ofMembers members).hasTeardown)
        (members.converted strategy) := by
  cases strategy <;> rfl

/-- A converted header is in place but for what it inherits. -/
theorem TypeHeader.inPlace_converted (strategy : Strategy) (hasTeardown : Bool)
    (header : TypeHeader) : header.InPlace (header.converted strategy hasTeardown) := by
  cases strategy with
  | reference => exact header.inPlace_removeBase
  | value =>
    have inStruct : header.InPlace (removeBase header).toStruct :=
      header.inPlace_removeBase.trans (inPlace_toStruct _)
    rw [converted]
    split
    · exact inStruct.trans (inPlace_addNoncopyable _)
    · exact inStruct

/-- Another block with members in the places of the old ones. -/
structure CodeBlock.InPlace (old new : CodeBlock) : Prop where
  leftBrace : new.leftBrace = old.leftBrace
  rightBrace : new.rightBrace = old.rightBrace
  members : List.Forall₂ Statement.InPlace old.statements new.statements

/-- Marking methods leaves the members in place. -/
theorem CodeBlock.InPlace.markMutating {old new : CodeBlock} (inPlace : old.InPlace new)
    (table : SymbolTable) : old.InPlace (markMutating table new) where
  leftBrace := inPlace.leftBrace
  rightBrace := inPlace.rightBrace
  members := by
    refine List.forall₂_map_right_iff.2 (inPlace.members.imp ?_)
    exact fun old new member => member.markMember _

/-- Converted members stay in place, one for each. -/
theorem CodeBlock.inPlace_converted (strategy : Strategy) (members : CodeBlock) :
    members.InPlace (members.converted strategy) := by
  have converted (context : SuiteContext) : members.InPlace
      { members with statements := members.statements.map (convertMember strategy context) } := by
    refine ⟨rfl, rfl, List.forall₂_map_right_iff.2 (List.forall₂_same.2 ?_)⟩
    exact fun statement _ => statement.inPlace_convertMember strategy context
  cases strategy with
  | reference => exact converted _
  | value => exact (converted _).markMutating _

/-- A suite is converted in place, with either strategy. The new suite has the members of the old
one in the same order, each behind its own trivia, and the type keeps its name, its generic
parameters, its constraints, its braces and the trivia before it. -/
theorem members_stay_in_place (strategy : Strategy) (header : TypeHeader) (members : CodeBlock) :
    ∃ newHeader newMembers,
      convertSuite strategy header members = .type newHeader newMembers ∧
      header.InPlace newHeader ∧ members.InPlace newMembers ∧
      Node.leading (convertSuite strategy header members) =
        Node.leading (Decl.type header members) := by
  rw [convertSuite_eq]
  have inPlace := header.inPlace_converted strategy (SuiteContext.ofMembers members).hasTeardown
  refine ⟨_, _, rfl, inPlace, members.inPlace_converted strategy, ?_⟩
  rw [Node.leading_eq, Node.leading_eq]
  refine congrArg (Option.getD · "") ?_
  exact (Decl.startTrivia_type ..).trans
    ((congrArg some inPlace.front).trans (Decl.startTrivia_type ..).symm)

end SuiteMigration
