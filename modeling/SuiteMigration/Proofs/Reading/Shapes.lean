import SuiteMigration.Proofs.Reading.Consumption
import SuiteMigration.Proofs.Tree.Shapes
import SuiteMigration.Reading.Source

/-!
# The shapes of what is read

Every tree that is read is sound: an operand follows each operator, both parentheses of a call are
made at once, a call without them comes from a closure behind it, and a list goes on only behind a
comma. Nothing is asked of the tokens, so this holds of every source and wherever in it the reading
starts.

The functions of the grammar call each other, and each call has one unit of fuel less. `GivesSound`
holds what all of them give at one amount of fuel, and the induction goes over this amount. Without
fuel nothing is given at all.

## Main definitions

* `Parser.Gives` - whatever a computation gives meets a condition
* `Parser.GivesSound` - what the functions of the grammar give is sound

## Main results

* `Parser.givesSound` - with every amount of fuel the functions of the grammar give sound trees
* `SourceFile.sound_parse` - the tree of a source text is sound
-/

namespace SuiteMigration

/-- A closure takes its place behind a call that may have been without parentheses before. -/
theorem Expr.sound_withClosure {callee : Expr} {closure : Closure} (sound : Sound callee.shapes)
    (closureSound : Sound closure.shapes) : Sound (callee.withClosure closure).shapes := by
  unfold Expr.withClosure
  split
  · next inner arguments before =>
    simp only [Expr.shapes, sound_cons, sound_append] at sound ⊢
    obtain ⟨shape, before, -⟩ := sound
    exact ⟨isSound_callShape_some shape closure, before, closureSound⟩
  · simp only [Expr.shapes, sound_cons, sound_append]
    exact ⟨isSound_callShape_absent closure, ⟨sound, by decide⟩, closureSound⟩

/-- One operand is read before the first operator and one behind each. -/
theorem Expr.sound_ofTerms {first : Expr} {rest : List OperatorTerm} (sound : Sound first.shapes)
    (restSound : ∀ term ∈ rest, Sound term.operand.shapes) :
    Sound (Expr.ofTerms first rest).shapes := by
  unfold Expr.ofTerms
  split
  · exact sound
  · next some =>
    have counts : (Shape.sequence (first :: rest.map OperatorTerm.operand).length
        (rest.map OperatorTerm.operator).length).IsSound := by
      simpa [Shape.IsSound, Nat.one_le_iff_ne_zero] using some
    simp only [Expr.shapes, sound_cons, sound_operands, List.forall_mem_cons, List.forall_mem_map]
    exact ⟨counts, sound, restSound⟩

namespace Parser

/-! ### What a computation gives -/

/-- Whatever the computation gives meets the condition, wherever it starts. -/
def Gives (p : Parser α) (post : α → Prop) : Prop :=
  ∀ cursor answer next, p cursor = some (answer, next) → post answer

namespace Gives

variable {p q : Parser α} {f : α → Parser β} {middle : α → Prop} {post : β → Prop}

theorem pure {answer : β} (holds : post answer) : Gives (Pure.pure answer) post := by
  intro cursor _ _ given
  cases given
  exact holds

theorem failure : Gives (failure : Parser β) post := by
  intro cursor _ _ given
  cases given

/-- What a first reading gives may be assumed of the next. -/
theorem bind (first : Gives p middle) (later : ∀ answer, middle answer → Gives (f answer) post) :
    Gives (p >>= f) post := by
  intro cursor answer last given
  obtain ⟨value, next, read, rest⟩ := bind_eq_some given
  exact later value (first cursor value next read) next answer last rest

/-- A step whose answer does not matter. -/
theorem after (later : ∀ answer, Gives (f answer) post) : Gives (p >>= f) post := by
  have first : Gives p fun _ => True := fun _ _ _ _ => trivial
  exact first.bind fun answer _ => later answer

/-- A part that cannot fail gives what it reads everywhere. -/
theorem part {read : Cursor → β × Cursor} (holds : ∀ cursor, post (read cursor).1) :
    Gives (Parser.part read) post := by
  intro cursor answer next given
  have same : (read cursor).1 = answer := congrArg Prod.fst (Option.some.inj given)
  exact same ▸ holds cursor

theorem map {make : α → β} (first : Gives p fun answer => post (make answer)) :
    Gives (make <$> p) post := by
  rw [← bind_pure_comp]
  exact first.bind fun _ holds => .pure holds

theorem ite {condition : Prop} [Decidable condition] {p q : Parser β} (holds : Gives p post)
    (fails : Gives q post) : Gives (if condition then p else q) post := by
  split
  · exact holds
  · exact fails

/-- Two branches that go on in the same way. -/
theorem join {condition : Prop} [Decidable condition] (middle : α → Prop) (holds : Gives p middle)
    (fails : Gives q middle) (later : ∀ answer, middle answer → Gives (f answer) post) :
    Gives (if condition then p >>= f else q >>= f) post :=
  ite (holds.bind later) (fails.bind later)

/-- A list goes on behind a comma, and without one it is complete. So an entry with this comma can
stand in front of what is read. -/
theorem behind {comma : Option Token} {hasComma : α → Bool} {shapes : List α → List Shape}
    {p : Parser (List α)} {f : List α → Parser β}
    (more : Gives p fun list => Sound (.list (list.map hasComma) :: shapes list))
    (complete : shapes [] = [])
    (later : ∀ list, (∀ first, hasComma first = comma.isSome →
      (Shape.list ((first :: list).map hasComma)).IsSound) → Sound (shapes list) →
        Gives (f list) post) :
    Gives (if comma.isSome then p >>= f else Pure.pure [] >>= f) post := by
  cases comma with
  | none =>
    rw [if_neg (by simp), pure_bind]
    refine later [] (fun _ _ => ?_) (complete ▸ sound_nil)
    simp [Shape.IsSound]
  | some comma =>
    refine more.bind fun list sound => ?_
    rw [sound_cons] at sound
    refine later list (fun first present => isSound_list_cons sound.1 fun missing => ?_) sound.2
    rw [present] at missing
    cases missing

end Gives

/-! ### Parts that hold tokens only -/

/-- What is left before a comma makes the value a run of tokens, which has no shapes. -/
theorem gives_absorbStray {value : Expr} (sound : Sound value.shapes) (closer : TokenKind) :
    Gives (absorbStray value closer) fun node => Sound node.shapes :=
  .after fun _ => .ite (.pure sound) (.after fun _ => .pure sound_nil)

theorem isSound_inheritedTypes (fuel : Nat) (cursor : Cursor) :
    (Shape.list ((cursor.inheritedTypes fuel).1.map InheritedType.hasComma)).IsSound := by
  induction fuel generalizing cursor with
  | zero => simp [Cursor.inheritedTypes, Shape.IsSound]
  | succ fuel ih =>
    simp only [Cursor.inheritedTypes]
    split
    · exact isSound_list_cons (ih _) (by simp [InheritedType.hasComma])
    · split <;> simp [Shape.IsSound]

/-- A type header is read with sound shapes. -/
theorem gives_typeHeader (attributes : List Attribute) (modifiers : List Modifier) :
    Gives (typeHeader attributes modifiers) fun header => Sound header.shapes := by
  have types : Gives (part fun cursor => cursor.inheritedTypes (cursor.pending.length + 1))
      fun types => (Shape.list (types.map InheritedType.hasComma)).IsSound :=
    .part fun cursor => isSound_inheritedTypes _ cursor
  have clause : Gives inheritanceClause fun clause =>
      ∀ header : TypeHeader, header.inheritance = clause → Sound header.shapes := by
    refine .after fun colon => ?_
    cases colon with
    | none => exact .pure fun header absent => by simp [TypeHeader.shapes, absent]
    | some colon =>
      exact types.bind fun _ sound => .pure fun header is => by simp [TypeHeader.shapes, is, sound]
  exact .after fun _ => .after fun _ => .after fun _ => clause.bind fun _ sound =>
    .after fun _ => .pure (sound _ rfl)

/-! ### One step of fuel -/

/-- With the given fuel the functions of the grammar give sound trees. -/
structure GivesSound (fuel : Nat) : Prop where
  statements : Gives (.statements fuel) fun nodes => Sound (shapesOfStatements nodes)
  statement : Gives (.statement fuel) fun node => Sound node.shapes
  item : Gives (.item fuel) fun node => Sound node.shapes
  codeBlock : Gives (.codeBlock fuel) fun node => Sound node.shapes
  optionalBlock : Gives (.codeBlock? fuel) fun node => Sound (shapesOfBlock? node)
  ifStatement : Gives (.ifStatement fuel) fun node => Sound node.shapes
  elseClause : Gives (.elseClause fuel) fun node => Sound node.shapes
  conditions : Gives (.conditions fuel) fun nodes =>
    Sound (.list (nodes.map Condition.hasComma) :: shapesOfConditions nodes)
  condition : Gives (.condition fuel) fun build => ∀ comma,
    (build comma).hasComma = comma.isSome ∧ Sound (shapesOfConditions [build comma])
  clause : ∀ position isMark,
    Gives (.clause? fuel position isMark) fun node => Sound (shapesOfClause? node)
  catches : Gives (.catches fuel) fun nodes => Sound (shapesOfCatches nodes)
  switchCases : Gives (.switchCases fuel) fun nodes => Sound (shapesOfCases nodes)
  caseStatements : Gives (.caseStatements fuel) fun nodes => Sound (shapesOfStatements nodes)
  decl : Gives (.decl fuel) fun node => Sound node.shapes
  bindings : Gives (.bindings fuel) fun nodes =>
    Sound (.list (nodes.map PatternBinding.hasComma) :: shapesOfBindings nodes)
  expr : ∀ position, Gives (.expr fuel position) fun node => Sound node.shapes
  terms : ∀ position ternaries,
    Gives (.terms fuel position ternaries) fun nodes => ∀ term ∈ nodes, Sound term.operand.shapes
  unary : ∀ position, Gives (.unary fuel position) fun node => Sound node.shapes
  primary : ∀ position, Gives (.primary fuel position) fun node => Sound node.shapes
  suffixes : ∀ position (base : Expr), Sound base.shapes →
    Gives (.suffixes fuel position base) fun node => Sound node.shapes
  argumentList : ∀ closer, Gives (.argumentList fuel closer) fun node => Sound node.shapes
  arguments : ∀ closer, Gives (.arguments fuel closer) fun nodes =>
    Sound (.list (nodes.map Argument.hasComma) :: shapesOfArguments nodes)
  collection : Gives (.collection fuel) fun node => Sound node.shapes
  elements : Gives (.elements fuel) fun nodes =>
    Sound (.list (nodes.map CollectionElement.hasComma) :: shapesOfElements nodes)
  closure : Gives (.closure fuel) fun node => Sound node.shapes

namespace GivesSound

variable {fuel : Nat}

/-! #### Expressions -/

theorem expr_succ (grammar : GivesSound fuel) (position : Position) :
    Gives (.expr (fuel + 1) position) fun node => Sound node.shapes := by
  rw [Parser.expr]
  refine (grammar.unary position).bind fun first sound => .ite (.pure sound) ?_
  exact (grammar.terms position 0).bind fun rest restSound =>
    .pure (Expr.sound_ofTerms sound restSound)

theorem terms_succ (grammar : GivesSound fuel) (position : Position) (ternaries : Nat) :
    Gives (.terms (fuel + 1) position ternaries) fun nodes =>
      ∀ term ∈ nodes, Sound term.operand.shapes := by
  rw [Parser.terms]
  refine .after fun operator => ?_
  cases operator with
  | none => exact .pure fun _ member => nomatch member
  | some operator =>
    -- A cast is followed by the tokens of a type, any other operator by an operand.
    refine .join (fun operand => Sound operand.shapes) ?_ (grammar.unary position) ?_
    · exact .map fun _ _ _ _ => sound_nil
    · exact fun _ sound => (grammar.terms position _).bind fun _ laterSound =>
        .pure (List.forall_mem_cons.2 ⟨sound, laterSound⟩)

theorem unary_succ (grammar : GivesSound fuel) (position : Position) :
    Gives (.unary (fuel + 1) position) fun node => Sound node.shapes := by
  rw [Parser.unary]
  refine .after fun _ => .ite ?_ (.ite ?_ (.ite ?_ (.ite ?_ ?_)))
  · exact .after fun _ => .after fun _ => (grammar.expr position).bind fun _ sound => .pure sound
  · exact .after fun _ => (grammar.expr position).bind fun _ sound => .pure sound
  · exact .after fun _ => (grammar.unary position).bind fun _ sound => .pure sound
  · -- A key path may have an empty root, which is as sound as any other.
    exact .after fun _ => (grammar.primary position).bind fun _ rootSound =>
      (grammar.suffixes position _ rootSound).bind fun _ sound => .pure sound
  · exact (grammar.primary position).bind fun _ rootSound =>
      .ite (.pure rootSound) (grammar.suffixes position _ rootSound)

theorem primary_succ (grammar : GivesSound fuel) (position : Position) :
    Gives (.primary (fuel + 1) position) fun node => Sound node.shapes := by
  have nothing : Gives (Pure.pure Expr.empty) fun node => Sound node.shapes := .pure sound_nil
  have single (make : Token → Expr) (plain : ∀ token, (make token).shapes = []) :
      Gives (make <$> bump) fun node => Sound node.shapes :=
    .map fun _ token _ _ => by simp [plain]
  rw [Parser.primary]
  refine .after fun token => ?_
  split
  · exact .ite (single _ fun _ => rfl) (.ite nothing (single _ fun _ => rfl))
  · exact single _ fun _ => rfl
  iterate 2 exact single _ fun _ => rfl
  · exact .map (grammar.argumentList _)
  · exact grammar.collection
  · exact .ite (.map grammar.closure) nothing
  · exact .after fun _ => .after fun _ => .pure sound_nil
  · exact nothing

/-- Each suffix makes a sound expression of a sound one. -/
theorem suffixes_succ (grammar : GivesSound fuel) (position : Position) (base : Expr)
    (sound : Sound base.shapes) :
    Gives (.suffixes (fuel + 1) position base) fun node => Sound node.shapes := by
  have next := grammar.suffixes position
  rw [Parser.suffixes]
  refine .after fun cursor => .ite ?_ (.ite ?_ (.ite ?_ (.ite ?_ (.ite ?_ ?_))))
  · exact .after fun _ => .after fun _ => next _ sound
  · refine (grammar.argumentList _).bind fun arguments argumentsSound => next _ ?_
    simp only [Expr.shapes, CallArguments.shapes_ofList, sound_cons, sound_append]
    exact ⟨isSound_callShape_ofList arguments none, ⟨sound, argumentsSound⟩, sound_nil⟩
  · refine (grammar.argumentList _).bind fun arguments argumentsSound => next _ ?_
    simp only [Expr.shapes, sound_append]
    exact ⟨sound, argumentsSound⟩
  · exact grammar.closure.bind fun _ closureSound =>
      next _ (Expr.sound_withClosure sound closureSound)
  · exact .after fun _ => next _ sound
  · split
    · exact .after fun _ => next _ sound
    · exact .pure sound

theorem argumentList_succ (grammar : GivesSound fuel) (closer : TokenKind) :
    Gives (.argumentList (fuel + 1) closer) fun node => Sound node.shapes := by
  rw [Parser.argumentList]
  exact .after fun _ => (grammar.arguments closer).bind fun _ sound => .after fun _ => .pure sound

theorem arguments_succ (grammar : GivesSound fuel) (closer : TokenKind) :
    Gives (.arguments (fuel + 1) closer) fun nodes =>
      Sound (.list (nodes.map Argument.hasComma) :: shapesOfArguments nodes) := by
  rw [Parser.arguments]
  have nothing : Sound (.list ([].map Argument.hasComma) :: shapesOfArguments []) := by decide
  refine .after fun _ => .ite (.pure nothing) (.after fun _ => ?_)
  refine (grammar.expr .free).bind fun _ exprSound =>
    (gives_absorbStray exprSound closer).bind fun _ valueSound => .after fun comma =>
    .ite (.pure nothing) (.behind (grammar.arguments closer) rfl fun later commas laterSound => ?_)
  refine .pure (sound_cons.2 ⟨commas _ rfl, ?_⟩)
  simp only [shapesOfArguments, sound_append]
  exact ⟨valueSound, laterSound⟩

theorem collection_succ (grammar : GivesSound fuel) :
    Gives (.collection (fuel + 1)) fun node => Sound node.shapes := by
  rw [Parser.collection]
  refine .after fun _ => .after fun _ => .ite ?_ ?_
  · exact .after fun _ => .after fun _ => .pure sound_nil
  · exact grammar.elements.bind fun _ sound => .after fun _ => .pure sound

theorem elements_succ (grammar : GivesSound fuel) :
    Gives (.elements (fuel + 1)) fun nodes =>
      Sound (.list (nodes.map CollectionElement.hasComma) :: shapesOfElements nodes) := by
  rw [Parser.elements]
  have nothing : Sound (.list ([].map CollectionElement.hasComma) :: shapesOfElements []) := by
    decide
  refine .after fun _ => .ite (.pure nothing) ?_
  refine (grammar.expr .free).bind fun first firstSound => .after fun colon => ?_
  cases colon with
  | some colon =>
    refine (grammar.expr .free).bind fun _ exprSound =>
      (gives_absorbStray exprSound _).bind fun _ valueSound => .after fun comma =>
      .behind grammar.elements rfl fun later commas laterSound => ?_
    refine .pure (sound_cons.2 ⟨commas _ rfl, ?_⟩)
    simp only [shapesOfElements, sound_append]
    exact ⟨⟨firstSound, valueSound⟩, laterSound⟩
  | none =>
    refine (gives_absorbStray firstSound _).bind fun _ valueSound => .after fun comma =>
      .ite (.pure nothing) (.behind grammar.elements rfl fun later commas laterSound => ?_)
    refine .pure (sound_cons.2 ⟨commas _ rfl, ?_⟩)
    simp only [shapesOfElements, sound_append]
    exact ⟨valueSound, laterSound⟩

theorem closure_succ (grammar : GivesSound fuel) :
    Gives (.closure (fuel + 1)) fun node => Sound node.shapes := by
  rw [Parser.closure]
  exact .after fun _ => .after fun _ => grammar.statements.bind fun _ sound =>
    .after fun _ => .pure sound

/-! #### Statements and declarations -/

theorem statements_succ (grammar : GivesSound fuel) :
    Gives (.statements (fuel + 1)) fun nodes => Sound (shapesOfStatements nodes) := by
  rw [Parser.statements]
  refine .after fun _ => .ite (.pure sound_nil) ?_
  refine grammar.statement.bind fun _ sound => grammar.statements.bind fun _ laterSound => .pure ?_
  simp only [shapesOfStatements, sound_append]
  exact ⟨sound, laterSound⟩

theorem statement_succ (grammar : GivesSound fuel) :
    Gives (.statement (fuel + 1)) fun node => Sound node.shapes := by
  rw [Parser.statement]
  -- An item that reads nothing is replaced by the next token.
  refine .after fun _ => grammar.item.bind fun _ sound => .after fun _ =>
    .join (fun item => Sound item.shapes) ?_ (.pure sound) ?_
  · exact .map fun _ _ _ _ => sound_nil
  · exact fun _ sound => .after fun _ => .pure sound

theorem codeBlock_succ (grammar : GivesSound fuel) :
    Gives (.codeBlock (fuel + 1)) fun node => Sound node.shapes := by
  rw [Parser.codeBlock]
  refine .after fun brace => ?_
  cases brace with
  | none => exact .pure sound_nil
  | some brace => exact grammar.statements.bind fun _ sound => .after fun _ => .pure sound

theorem optionalBlock_succ (grammar : GivesSound fuel) :
    Gives (.codeBlock? (fuel + 1)) fun node => Sound (shapesOfBlock? node) := by
  rw [Parser.codeBlock?]
  exact .after fun _ => .ite (.map grammar.codeBlock) (.pure sound_nil)

theorem ifStatement_succ (grammar : GivesSound fuel) :
    Gives (.ifStatement (fuel + 1)) fun node => Sound node.shapes := by
  rw [Parser.ifStatement]
  refine .after fun _ => grammar.conditions.bind fun _ conditionsSound =>
    grammar.codeBlock.bind fun _ bodySound =>
    grammar.elseClause.bind fun _ alternativeSound => .pure ?_
  rw [sound_cons] at conditionsSound
  simp only [IfStatement.shapes, sound_cons, sound_append]
  exact ⟨conditionsSound.1, ⟨conditionsSound.2, bodySound⟩, alternativeSound⟩

theorem elseClause_succ (grammar : GivesSound fuel) :
    Gives (.elseClause (fuel + 1)) fun node => Sound node.shapes := by
  rw [Parser.elseClause]
  refine .after fun keyword => ?_
  cases keyword with
  | none => exact .pure sound_nil
  | some keyword => exact .after fun _ => .ite (.map grammar.ifStatement) (.map grammar.codeBlock)

theorem conditions_succ (grammar : GivesSound fuel) :
    Gives (.conditions (fuel + 1)) fun nodes =>
      Sound (.list (nodes.map Condition.hasComma) :: shapesOfConditions nodes) := by
  rw [Parser.conditions]
  refine grammar.condition.bind fun build sound => .after fun comma =>
    .behind grammar.conditions rfl fun later commas laterSound => ?_
  obtain ⟨hasComma, firstSound⟩ := sound comma
  refine .pure (sound_cons.2 ⟨commas _ hasComma, ?_⟩)
  generalize build comma = first at firstSound
  cases first with
  | expr expr comma =>
    simp only [shapesOfConditions, sound_append] at firstSound ⊢
    exact ⟨firstSound.1, laterSound⟩
  | binding specifier pattern type initializer comma =>
    simp only [shapesOfConditions, sound_append] at firstSound ⊢
    exact ⟨firstSound.1, laterSound⟩

theorem condition_succ (grammar : GivesSound fuel) :
    Gives (.condition (fuel + 1)) fun build => ∀ comma,
      (build comma).hasComma = comma.isSome ∧ Sound (shapesOfConditions [build comma]) := by
  rw [Parser.condition]
  refine .after fun _ => .ite ?_ ?_
  · refine .after fun _ => .after fun _ => .after fun _ =>
      (grammar.clause .head _).bind fun _ sound => .pure fun comma => ⟨rfl, ?_⟩
    simp only [shapesOfConditions, sound_append]
    exact ⟨sound, sound_nil⟩
  · refine (grammar.expr .head).bind fun _ sound => .pure fun comma => ⟨rfl, ?_⟩
    simp only [shapesOfConditions, sound_append]
    exact ⟨sound, sound_nil⟩

theorem clause_succ (grammar : GivesSound fuel) (position : Position) (isMark : Cursor → Bool) :
    Gives (.clause? (fuel + 1) position isMark) fun node => Sound (shapesOfClause? node) := by
  rw [Parser.clause?]
  refine .after fun mark => ?_
  cases mark with
  | none => exact .pure sound_nil
  | some mark => exact (grammar.expr position).bind fun _ sound => .pure sound

theorem catches_succ (grammar : GivesSound fuel) :
    Gives (.catches (fuel + 1)) fun nodes => Sound (shapesOfCatches nodes) := by
  rw [Parser.catches]
  refine .after fun keyword => ?_
  cases keyword with
  | none => exact .pure sound_nil
  | some keyword =>
    refine .after fun _ => grammar.codeBlock.bind fun _ bodySound =>
      grammar.catches.bind fun _ laterSound => .pure ?_
    simp only [shapesOfCatches, sound_append]
    exact ⟨bodySound, laterSound⟩

theorem switchCases_succ (grammar : GivesSound fuel) :
    Gives (.switchCases (fuel + 1)) fun nodes => Sound (shapesOfCases nodes) := by
  rw [Parser.switchCases]
  refine .after fun _ => .ite (.pure sound_nil) (.after fun _ => ?_)
  refine grammar.caseStatements.bind fun _ sound =>
    grammar.switchCases.bind fun _ laterSound => .pure ?_
  simp only [shapesOfCases, sound_append]
  exact ⟨sound, laterSound⟩

theorem caseStatements_succ (grammar : GivesSound fuel) :
    Gives (.caseStatements (fuel + 1)) fun nodes => Sound (shapesOfStatements nodes) := by
  rw [Parser.caseStatements]
  refine .after fun _ => .ite (.pure sound_nil) ?_
  refine grammar.statement.bind fun _ sound =>
    grammar.caseStatements.bind fun _ laterSound => .pure ?_
  simp only [shapesOfStatements, sound_append]
  exact ⟨sound, laterSound⟩

theorem bindings_succ (grammar : GivesSound fuel) :
    Gives (.bindings (fuel + 1)) fun nodes =>
      Sound (.list (nodes.map PatternBinding.hasComma) :: shapesOfBindings nodes) := by
  rw [Parser.bindings]
  refine .after fun _ => .after fun _ => (grammar.clause .free _).bind fun _ initializerSound =>
    grammar.optionalBlock.bind fun _ accessorSound => .after fun comma =>
    .behind grammar.bindings rfl fun later commas laterSound => ?_
  refine .pure (sound_cons.2 ⟨commas _ rfl, ?_⟩)
  simp only [shapesOfBindings, sound_append]
  exact ⟨⟨initializerSound, accessorSound⟩, laterSound⟩

theorem decl_succ (grammar : GivesSound fuel) :
    Gives (.decl (fuel + 1)) fun node => Sound node.shapes := by
  rw [Parser.decl]
  -- The word behind attributes and modifiers decides which declaration it is.
  refine .after fun _ => .after fun _ => .after fun _ =>
    .ite ?_ (.ite ?_ (.ite ?_ (.ite ?_ (.ite ?_ (.ite ?_ ?_)))))
  · exact .map fun _ _ _ _ => sound_nil
  · refine (gives_typeHeader _ _).bind fun _ headerSound =>
      grammar.codeBlock.bind fun _ membersSound => .pure ?_
    simp only [Decl.shapes, sound_append]
    exact ⟨headerSound, membersSound⟩
  · exact .after fun _ => grammar.optionalBlock.bind fun _ sound => .pure sound
  · exact .after fun _ => grammar.bindings.bind fun _ sound => .pure sound
  · exact .after fun _ => grammar.optionalBlock.bind fun _ sound => .pure sound
  · exact .after fun _ => grammar.optionalBlock.bind fun _ sound => .pure sound
  · exact .map fun _ _ _ _ => sound_nil

theorem item_succ (grammar : GivesSound fuel) :
    Gives (.item (fuel + 1)) fun node => Sound node.shapes := by
  have raw (length : Cursor → Nat) :
      Gives (Item.raw <$> run length) fun node => Sound node.shapes :=
    .map fun _ _ _ _ => sound_nil
  have expression : Gives (Item.expr <$> Parser.expr fuel .free) fun node => Sound node.shapes :=
    .map (grammar.expr .free)
  rw [Parser.item]
  refine .after fun cursor => .ite (raw _) (.ite (raw _) (.ite (.map grammar.decl)
    (.ite ?_ expression)))
  -- From here on the word decides, one case for each keyword that begins a statement.
  generalize cursor.peek.text = word
  split
  · exact .map grammar.ifStatement
  · -- `guard`
    refine .after fun _ => grammar.conditions.bind fun _ conditionsSound => .after fun _ =>
      grammar.codeBlock.bind fun _ bodySound => .pure ?_
    rw [sound_cons] at conditionsSound
    simp only [Item.shapes, sound_cons, sound_append]
    exact ⟨conditionsSound.1, conditionsSound.2, bodySound⟩
  · -- `for`
    refine .after fun _ => .after fun _ => .after fun _ => .after fun _ => .after fun _ =>
      (grammar.expr .head).bind fun _ sequenceSound =>
      (grammar.clause .head _).bind fun _ filterSound =>
      grammar.codeBlock.bind fun _ bodySound => .pure ?_
    simp only [Item.shapes, sound_append]
    exact ⟨⟨sequenceSound, filterSound⟩, bodySound⟩
  · -- `while`
    refine .after fun _ => grammar.conditions.bind fun _ conditionsSound =>
      grammar.codeBlock.bind fun _ bodySound => .pure ?_
    rw [sound_cons] at conditionsSound
    simp only [Item.shapes, sound_cons, sound_append]
    exact ⟨conditionsSound.1, conditionsSound.2, bodySound⟩
  · -- `repeat`: an empty condition stands where the `while` is missing.
    refine .after fun _ => grammar.codeBlock.bind fun _ bodySound => .after fun _ =>
      .join (fun condition => Sound condition.shapes) (.pure sound_nil)
        (grammar.expr .head) fun _ conditionSound => .pure ?_
    simp only [Item.shapes, sound_append]
    exact ⟨bodySound, conditionSound⟩
  · -- `do`
    refine .after fun _ => .after fun _ => .after fun _ => grammar.codeBlock.bind fun _ bodySound =>
      grammar.catches.bind fun _ catchesSound => .pure ?_
    simp only [Item.shapes, sound_append]
    exact ⟨bodySound, catchesSound⟩
  · -- `switch`
    refine .after fun _ => (grammar.expr .head).bind fun _ subjectSound => .after fun brace => ?_
    cases brace with
    | none =>
      refine .pure ?_
      simp only [Item.shapes, sound_append]
      exact ⟨subjectSound, sound_nil⟩
    | some brace =>
      refine grammar.switchCases.bind fun _ casesSound => .after fun _ => .pure ?_
      simp only [Item.shapes, sound_append]
      exact ⟨subjectSound, casesSound⟩
  · -- `defer`
    exact .after fun _ => grammar.codeBlock.bind fun _ sound => .pure sound
  · -- `return`: an empty value is dropped.
    refine .after fun _ => .after fun _ => .ite (.pure sound_nil) ?_
    refine (grammar.expr .free).bind fun value sound => .pure ?_
    cases value.isEmpty with
    | true => exact sound_nil
    | false => exact sound
  · -- `throw`
    exact .after fun _ => (grammar.expr .free).bind fun _ sound => .pure sound
  -- `break` and `continue` are read alike.
  iterate 2 exact .after fun _ => .after fun _ => .pure sound_nil
  · exact raw _
  · exact expression

/-- Without fuel nothing is given. -/
theorem zero : GivesSound 0 := by
  constructor
  all_goals intros
  all_goals exact .failure

theorem succ (grammar : GivesSound fuel) : GivesSound (fuel + 1) where
  statements := grammar.statements_succ
  statement := grammar.statement_succ
  item := grammar.item_succ
  codeBlock := grammar.codeBlock_succ
  optionalBlock := grammar.optionalBlock_succ
  ifStatement := grammar.ifStatement_succ
  elseClause := grammar.elseClause_succ
  conditions := grammar.conditions_succ
  condition := grammar.condition_succ
  clause := grammar.clause_succ
  catches := grammar.catches_succ
  switchCases := grammar.switchCases_succ
  caseStatements := grammar.caseStatements_succ
  decl := grammar.decl_succ
  bindings := grammar.bindings_succ
  expr := grammar.expr_succ
  terms := grammar.terms_succ
  unary := grammar.unary_succ
  primary := grammar.primary_succ
  suffixes := grammar.suffixes_succ
  argumentList := grammar.argumentList_succ
  arguments := grammar.arguments_succ
  collection := grammar.collection_succ
  elements := grammar.elements_succ
  closure := grammar.closure_succ

end GivesSound

/-! ### Files -/

/-- With every amount of fuel the functions of the grammar give sound trees. -/
theorem givesSound (fuel : Nat) : GivesSound fuel := by
  induction fuel with
  | zero => exact .zero
  | succ fuel grammar => exact grammar.succ

/-- The statements of a file are read with sound shapes. -/
theorem gives_fileStatements (fuel : Nat) :
    Gives (fileStatements fuel) fun nodes => Sound (shapesOfStatements nodes) := by
  induction fuel with
  | zero => exact .failure
  | succ fuel ih =>
    refine .after fun _ => .ite (.pure sound_nil) (.after fun _ => ?_)
    -- A closing brace without an opening one is a statement of its own at the top of a file.
    refine .join (fun node => Sound node.shapes) ?_ (givesSound fuel).statement ?_
    · exact .map fun _ _ _ _ => sound_nil
    · refine fun _ sound => ih.bind fun _ laterSound => .pure ?_
      simp only [shapesOfStatements, sound_append]
      exact ⟨sound, laterSound⟩

end Parser

namespace SourceFile

/-- The tree of every stream has sound shapes. -/
theorem sound_ofTokens (stream : TokenStream) : Sound (ofTokens stream).shapes := by
  unfold ofTokens
  split
  · next statements last read => exact Parser.gives_fileStatements _ _ _ _ read
  · exact sound_nil

/-- The tree of a source text is sound. -/
theorem sound_parse (source : String) : Sound (parse source).shapes :=
  sound_ofTokens (tokenize source)

example : (parse "f(a + b, c) { g { } }").shapes =
    [.call true true 2 true, .list [true, false], .sequence 2 1,
      .call false false 0 true, .list []] := by
  decide +kernel

end SourceFile

end SuiteMigration
