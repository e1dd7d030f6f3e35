import Mathlib.Tactic.Common
import SuiteMigration.Proofs.Tree.Rebuilding
import SuiteMigration.Tree.Layout

/-!
# Shapes of a tree

What the types of a tree leave open, and every tree that is read or migrated has in common: an
operator sequence has an operator and one operand more than operators, a call has both parentheses or
neither, and without them it has no arguments and is followed by a closure, and in a list with commas
every entry but the last has one. The shapes of a tree are collected once, so that they can be looked
at in any tree. The types also hold trees that are not of these shapes: a sequence with too many
operators, whose text leaves some of them out, or a call with one parenthesis.

Filling the places of a node puts other tokens into a tree and leaves its shapes as they are, so a
node keeps its shapes under other trivia.

## Main definitions

* `Shape` - an operator sequence, a call or a list with commas
* `Shape.IsSound`, `Sound` - the condition on one shape, and on all shapes of a list
* `Expr.shapes`, `Statement.shapes`, `SourceFile.shapes` - the shapes of a tree

## Main results

* `sound_list_iff` - the condition on commas, pair by pair
* `isSound_callShape_of_isClosed`, `isSound_callShape_some`, `isSound_list_cons` - when a call and a
  longer list are sound
* `Expr.shapes_setLeading`, `Expr.shapes_setTrailing`, `Statement.shapes_setLeading`,
  `Statement.shapes_setTrailing` - other trivia leave the shapes as they are
-/

namespace SuiteMigration

/-! ### Shapes -/

/-- A shape that the types of a tree leave open. -/
inductive Shape
  /-- The numbers of operands and of operators in a sequence. -/
  | sequence (operands operators : Nat)
  /-- Whether a call has its parentheses, how many arguments it has, and whether a closure follows
  it. -/
  | call (opened closed : Bool) (arguments : Nat) (closure : Bool)
  /-- Which entries of a list are followed by a comma. -/
  | list (commas : List Bool)
  deriving DecidableEq, Repr

/-- A sequence has an operator and one operand more than operators. A call has both parentheses or
neither; without them it has no arguments and a closure follows. Every entry of a list but the last
is followed by a comma. -/
def Shape.IsSound : Shape → Prop
  | .sequence operands operators => 1 ≤ operators ∧ operands = operators + 1
  | .call opened closed arguments closure =>
    opened = closed ∧ (opened = false → arguments = 0 ∧ closure = true)
  | .list commas => ∀ comma ∈ commas.dropLast, comma = true

instance (shape : Shape) : Decidable shape.IsSound :=
  match shape with
  | .sequence operands operators =>
    inferInstanceAs (Decidable (1 ≤ operators ∧ operands = operators + 1))
  | .call opened closed arguments closure =>
    inferInstanceAs (Decidable
      (opened = closed ∧ (opened = false → arguments = 0 ∧ closure = true)))
  | .list commas => inferInstanceAs (Decidable (∀ comma ∈ commas.dropLast, comma = true))

/-- All shapes of the list are sound. -/
def Sound (shapes : List Shape) : Prop :=
  ∀ shape ∈ shapes, shape.IsSound

instance (shapes : List Shape) : Decidable (Sound shapes) :=
  inferInstanceAs (Decidable (∀ shape ∈ shapes, shape.IsSound))

@[simp] theorem sound_nil : Sound [] := by
  simp [Sound]

@[simp] theorem sound_cons {shape : Shape} {shapes : List Shape} :
    Sound (shape :: shapes) ↔ shape.IsSound ∧ Sound shapes := by
  simp [Sound]

/-- Shapes in a row are sound if both parts are. -/
@[simp] theorem sound_append {first second : List Shape} :
    Sound (first ++ second) ↔ Sound first ∧ Sound second := by
  simp [Sound, or_imp, forall_and]

/-! ### Commas -/

def Argument.hasComma (argument : Argument) : Bool :=
  argument.comma.isSome

def CollectionElement.hasComma : CollectionElement → Bool
  | .value _ comma => comma.isSome
  | .entry _ _ _ comma => comma.isSome

def Condition.hasComma : Condition → Bool
  | .expr _ comma => comma.isSome
  | .binding _ _ _ _ comma => comma.isSome

def PatternBinding.hasComma (binding : PatternBinding) : Bool :=
  binding.comma.isSome

def InheritedType.hasComma (type : InheritedType) : Bool :=
  type.comma.isSome

/-- An entry with another one behind it has a comma. In this form the condition passes to every part
of a list. -/
theorem sound_list_iff {commas : List Bool} :
    (Shape.list commas).IsSound ↔ commas.Pairwise fun comma _ => comma = true := by
  induction commas with
  | nil => simp [Shape.IsSound]
  | cons first later ih =>
    cases later with
    | nil => simp [Shape.IsSound]
    | cons second later =>
      have split : (Shape.list (first :: second :: later)).IsSound ↔
          first = true ∧ (Shape.list (second :: later)).IsSound := by
        simp only [Shape.IsSound, List.dropLast_cons_cons, List.forall_mem_cons]
      rw [split, ih]
      constructor
      · rintro ⟨isTrue, rest⟩
        exact List.pairwise_cons.2 ⟨fun _ _ => isTrue, rest⟩
      · intro all
        obtain ⟨isTrue, rest⟩ := List.pairwise_cons.1 all
        exact ⟨isTrue second List.mem_cons_self, rest⟩

/-! ### The shapes of a tree -/

/-- The shape of the inheritance clause. -/
def TypeHeader.shapes (header : TypeHeader) : List Shape :=
  match header.inheritance with
  | none => []
  | some clause => [.list (clause.types.map InheritedType.hasComma)]

/-- The shape of a call with the given arguments and closure. -/
def callShape (list : CallArguments) (closure : Option Closure) : Shape :=
  .call list.leftParen.isSome list.rightParen.isSome list.arguments.length closure.isSome

mutual

def Expr.shapes : Expr → List Shape
  | .identifier _ | .literal _ | .raw _ => []
  | .member base _ _ => shapesOfExpr? base
  | .call callee arguments closure =>
    callShape arguments closure ::
      (callee.shapes ++ arguments.shapes ++ shapesOfClosure? closure)
  | .index base arguments => base.shapes ++ arguments.shapes
  | .sequence operands operators =>
    .sequence operands.length operators.length :: shapesOfOperands operands
  | .prefixed _ operand => operand.shapes
  | .suffixed operand _ => operand.shapes
  | .trying _ _ operand => operand.shapes
  | .awaiting _ operand => operand.shapes
  | .tuple elements => elements.shapes
  | .collection _ elements _ =>
    .list (elements.map CollectionElement.hasComma) :: shapesOfElements elements
  | .closure closure => closure.shapes
  | .specialized base _ => base.shapes

def shapesOfExpr? : Option Expr → List Shape
  | none => []
  | some expr => expr.shapes

def ArgumentList.shapes : ArgumentList → List Shape
  | ⟨_, arguments, _⟩ => .list (arguments.map Argument.hasComma) :: shapesOfArguments arguments

def CallArguments.shapes : CallArguments → List Shape
  | ⟨_, arguments, _⟩ => .list (arguments.map Argument.hasComma) :: shapesOfArguments arguments

def shapesOfArguments : List Argument → List Shape
  | [] => []
  | ⟨_, value, _⟩ :: later => value.shapes ++ shapesOfArguments later

def shapesOfOperands : List Expr → List Shape
  | [] => []
  | operand :: later => operand.shapes ++ shapesOfOperands later

def shapesOfElements : List CollectionElement → List Shape
  | [] => []
  | .value value _ :: later => value.shapes ++ shapesOfElements later
  | .entry key _ value _ :: later => key.shapes ++ value.shapes ++ shapesOfElements later

def Closure.shapes : Closure → List Shape
  | ⟨_, _, statements, _⟩ => shapesOfStatements statements

def shapesOfClosure? : Option Closure → List Shape
  | none => []
  | some closure => closure.shapes

def Statement.shapes : Statement → List Shape
  | ⟨item, _⟩ => item.shapes

def shapesOfStatements : List Statement → List Shape
  | [] => []
  | statement :: later => statement.shapes ++ shapesOfStatements later

def Item.shapes : Item → List Shape
  | .expr expr => expr.shapes
  | .decl decl => decl.shapes
  | .returning _ value => shapesOfExpr? value
  | .throwing _ value => value.shapes
  | .conditional statement => statement.shapes
  | .guarding _ conditions _ body =>
    .list (conditions.map Condition.hasComma) :: (shapesOfConditions conditions ++ body.shapes)
  | .forIn _ _ _ _ _ sequence filter body =>
    sequence.shapes ++ shapesOfClause? filter ++ body.shapes
  | .whileLoop _ conditions body =>
    .list (conditions.map Condition.hasComma) :: (shapesOfConditions conditions ++ body.shapes)
  | .repeatLoop _ body _ condition => body.shapes ++ condition.shapes
  | .doCatch _ _ body catches => body.shapes ++ shapesOfCatches catches
  | .switching _ subject _ cases _ => subject.shapes ++ shapesOfCases cases
  | .deferring _ body => body.shapes
  | .raw _ => []

def CodeBlock.shapes : CodeBlock → List Shape
  | ⟨_, statements, _⟩ => shapesOfStatements statements

def shapesOfBlock? : Option CodeBlock → List Shape
  | none => []
  | some block => block.shapes

def IfStatement.shapes : IfStatement → List Shape
  | ⟨_, conditions, body, alternative⟩ =>
    .list (conditions.map Condition.hasComma) ::
      (shapesOfConditions conditions ++ body.shapes ++ alternative.shapes)

def ElseClause.shapes : ElseClause → List Shape
  | .absent => []
  | .block _ body => body.shapes
  | .chained _ next => next.shapes

def shapesOfConditions : List Condition → List Shape
  | [] => []
  | .expr expr _ :: later => expr.shapes ++ shapesOfConditions later
  | .binding _ _ _ initializer _ :: later =>
    shapesOfClause? initializer ++ shapesOfConditions later

def Clause.shapes : Clause → List Shape
  | ⟨_, value⟩ => value.shapes

def shapesOfClause? : Option Clause → List Shape
  | none => []
  | some clause => clause.shapes

def shapesOfCatches : List CatchClause → List Shape
  | [] => []
  | ⟨_, _, body⟩ :: later => body.shapes ++ shapesOfCatches later

def shapesOfCases : List SwitchCase → List Shape
  | [] => []
  | ⟨_, statements⟩ :: later => shapesOfStatements statements ++ shapesOfCases later

def Decl.shapes : Decl → List Shape
  | .importing _ | .raw _ => []
  | .type header members => header.shapes ++ members.shapes
  | .function _ body => shapesOfBlock? body
  | .variable _ bindings =>
    .list (bindings.map PatternBinding.hasComma) :: shapesOfBindings bindings
  | .initializer _ body => shapesOfBlock? body
  | .finalizer _ body => shapesOfBlock? body

def shapesOfBindings : List PatternBinding → List Shape
  | [] => []
  | ⟨_, _, initializer, accessor, _⟩ :: later =>
    shapesOfClause? initializer ++ shapesOfBlock? accessor ++ shapesOfBindings later

end

/-- Arguments in parentheses have the shapes of their list. -/
@[simp] theorem CallArguments.shapes_ofList (list : ArgumentList) :
    (CallArguments.ofList list).shapes = list.shapes := by
  cases list
  rfl

/-- The shapes of a file. -/
def SourceFile.shapes (file : SourceFile) : List Shape :=
  shapesOfStatements file.statements

theorem Statement.shapes_eq (statement : Statement) : statement.shapes = statement.item.shapes := by
  cases statement
  rfl

/-- Some statements are sound if each of them is. -/
theorem sound_statements {statements : List Statement} :
    Sound (shapesOfStatements statements) ↔ ∀ statement ∈ statements, Sound statement.shapes := by
  induction statements with
  | nil => simp [shapesOfStatements]
  | cons statement later ih => simp [shapesOfStatements, ih]

/-- Some arguments are sound if the values of all of them are. -/
theorem sound_arguments {arguments : List Argument} :
    Sound (shapesOfArguments arguments) ↔
      ∀ argument ∈ arguments, Sound argument.value.shapes := by
  induction arguments with
  | nil => simp [shapesOfArguments]
  | cons argument later ih =>
    obtain ⟨label, value, comma⟩ := argument
    simp [shapesOfArguments, ih]

/-! ### Building sound shapes -/

/-- A closure behind a call takes nothing away from its shape. -/
theorem isSound_callShape_some {list : CallArguments} {before : Option Closure}
    (sound : (callShape list before).IsSound) (closure : Closure) :
    (callShape list (some closure)).IsSound :=
  ⟨sound.1, fun unopened => ⟨(sound.2 unopened).1, rfl⟩⟩

/-- A call without parentheses is sound if a closure follows. -/
theorem isSound_callShape_absent (closure : Closure) :
    (callShape .absent (some closure)).IsSound :=
  ⟨rfl, fun _ => ⟨rfl, rfl⟩⟩

/-- An argument list brings both parentheses. -/
theorem isSound_callShape_ofList (list : ArgumentList) (closure : Option Closure) :
    (callShape (.ofList list) closure).IsSound :=
  ⟨rfl, fun unopened => by cases unopened⟩

/-- A call with both parentheses is sound. -/
theorem isSound_callShape_of_isClosed {list : CallArguments} (closed : list.isClosed = true)
    (closure : Option Closure) : (callShape list closure).IsSound := by
  simp only [CallArguments.isClosed, Bool.and_eq_true] at closed
  have right : list.rightParen.isSome = true := Option.isSome_of_any closed.2
  simp [callShape, Shape.IsSound, closed.1, right]

/-- A list grows at its front, if the new entry has a comma or stands alone. -/
theorem isSound_list_cons {hasComma : α → Bool} {first : α} {later : List α}
    (rest : (Shape.list (later.map hasComma)).IsSound) (last : hasComma first = false → later = []) :
    (Shape.list ((first :: later).map hasComma)).IsSound := by
  rw [sound_list_iff] at rest ⊢
  refine List.pairwise_cons.2 ⟨fun comma member => ?_, rest⟩
  by_contra missing
  rw [last (Bool.eq_false_iff.2 missing)] at member
  cases member

/-- Some operands are sound if each of them is. -/
theorem sound_operands {operands : List Expr} :
    Sound (shapesOfOperands operands) ↔ ∀ operand ∈ operands, Sound operand.shapes := by
  induction operands with
  | nil => simp [shapesOfOperands]
  | cons operand later ih => simp [shapesOfOperands, ih]

/-! ### Filling -/

theorem Yields.map {σ α β : Type} {action : StateM σ α} {make : α → β} {post : α → Prop}
    {goal : β → Prop} (yields : Yields action post) (made : ∀ value, post value → goal (make value)) :
    Yields (make <$> action) goal :=
  fun state => made _ (yields state)

/-- A part that may be absent stays absent or present. -/
theorem yields_fill_option [Node α] (node : Option α) :
    Yields (Node.fill node) fun new : Option α => new.isSome = node.isSome := by
  cases node with
  | none => exact .pure rfl
  | some node => exact fun _ => rfl

theorem yields_fill_inheritedTypes (types : List InheritedType) :
    Yields (Node.fill types) fun new : List InheritedType =>
      new.map InheritedType.hasComma = types.map InheritedType.hasComma := by
  show Yields (types.mapM Node.fill) _
  induction types with
  | nil => exact .pure rfl
  | cons type later ih =>
    rw [List.mapM_cons]
    have first : Yields (Node.fill type) fun new : InheritedType => new.hasComma = type.hasComma :=
      .after fun _ => (yields_fill_option type.comma).bind fun _ same => .pure same
    refine first.bind fun _ same => ih.bind fun _ laterSame => .pure ?_
    simp [same, laterSame]

theorem yields_fill_inheritanceClause (clause : InheritanceClause) :
    Yields (Node.fill clause) fun new : InheritanceClause =>
      new.types.map InheritedType.hasComma = clause.types.map InheritedType.hasComma :=
  .after fun _ => (yields_fill_inheritedTypes clause.types).bind fun _ same => .pure same

/-- A refilled header has the same shapes. -/
theorem TypeHeader.yields_fill (header : TypeHeader) :
    Yields (Node.fill header) fun new : TypeHeader => new.shapes = header.shapes := by
  have inheritance : Yields (Node.fill header.inheritance) fun new : Option InheritanceClause =>
      ∀ other : TypeHeader, other.inheritance = new → other.shapes = header.shapes := by
    unfold TypeHeader.shapes
    cases header.inheritance with
    | none => exact .pure fun other same => by rw [same]
    | some clause =>
      refine (yields_fill_inheritanceClause clause).map fun _ same other other_eq => ?_
      simp only [other_eq, same]
  exact .after fun _ => .after fun _ => .after fun _ => .after fun _ => .after fun _ =>
    inheritance.bind fun _ kept => .after fun _ => .pure (kept _ rfl)

-- The induction follows the places of a node. Commas are filled by commas, so that lists keep theirs.
mutual

/-- A refilled expression has the same shapes, whatever tokens it is given. -/
theorem Expr.yields_fill (expr : Expr) :
    Yields expr.fill fun new => new.shapes = expr.shapes := by
  match expr with
  | .identifier token | .literal token | .raw tokens => exact fun _ => rfl
  | .member base period name =>
    exact (yields_fillExpr? base).bind fun _ new => .after fun _ => .after fun _ => .pure new
  | .call callee arguments closure =>
    refine callee.yields_fill.bind fun _ calleeNew =>
      arguments.yields_fill.bind fun newArguments argumentsNew =>
      (yields_fillClosure? closure).bind fun newClosure closureNew => .pure ?_
    have shape : callShape newArguments newClosure = callShape arguments closure := by
      rw [argumentsNew.2, callShape, callShape, closureNew.2]
    simp [Expr.shapes, shape, calleeNew, argumentsNew.1, closureNew.1]
  | .index base arguments =>
    refine base.yields_fill.bind fun _ baseNew => arguments.yields_fill.bind fun _ new => .pure ?_
    simp [Expr.shapes, baseNew, new]
  | .sequence operands operators =>
    refine (yields_fillOperands operands operators).bind fun _ new => .pure ?_
    simp [Expr.shapes, new.1, new.2.1, new.2.2]
  | .prefixed operator operand | .awaiting operator operand =>
    exact .after fun _ => operand.yields_fill.bind fun _ new => .pure new
  | .suffixed operand operator =>
    exact operand.yields_fill.bind fun _ new => .after fun _ => .pure new
  | .trying keyword mark operand =>
    exact .after fun _ => .after fun _ => operand.yields_fill.bind fun _ new => .pure new
  | .tuple elements => exact elements.yields_fill.map fun _ new => new
  | .collection left elements right =>
    refine .after fun _ => (yields_fillElements elements).bind fun _ new => .after fun _ => .pure ?_
    simp [Expr.shapes, new.1, new.2]
  | .closure closure => exact closure.yields_fill.map fun _ new => new
  | .specialized base arguments =>
    exact base.yields_fill.bind fun _ new => .after fun _ => .pure new

theorem yields_fillExpr? (expr : Option Expr) :
    Yields (fillExpr? expr) fun new => shapesOfExpr? new = shapesOfExpr? expr := by
  match expr with
  | none => exact .pure rfl
  | some expr => exact expr.yields_fill.map fun _ new => new

theorem ArgumentList.yields_fill (list : ArgumentList) :
    Yields list.fill fun new => new.shapes = list.shapes := by
  match list with
  | ⟨opener, arguments, closer⟩ =>
    refine .after fun _ => (yields_fillArguments arguments).bind fun _ new => .after fun _ =>
      .pure ?_
    simp [ArgumentList.shapes, new.1, new.2]

theorem CallArguments.yields_fill (list : CallArguments) :
    Yields list.fill fun new =>
      new.shapes = list.shapes ∧ ∀ closure, callShape new closure = callShape list closure := by
  match list with
  | ⟨left, arguments, right⟩ =>
    refine (yields_fill_option left).bind fun _ leftNew =>
      (yields_fillArguments arguments).bind fun _ new =>
      (yields_fill_option right).bind fun _ rightNew => .pure ⟨?_, fun closure => ?_⟩
    · simp [CallArguments.shapes, new.1, new.2]
    · simp [callShape, leftNew, rightNew, by simpa using congrArg List.length new.2]

theorem yields_fillArguments (arguments : List Argument) :
    Yields (fillArguments arguments) fun new =>
      shapesOfArguments new = shapesOfArguments arguments ∧
        new.map Argument.hasComma = arguments.map Argument.hasComma := by
  match arguments with
  | [] => exact .pure ⟨rfl, rfl⟩
  | ⟨label, value, comma⟩ :: later =>
    simp only [fillArguments, Argument.fill, bind_assoc, pure_bind]
    refine .after fun _ => value.yields_fill.bind fun _ valueNew =>
      (yields_fill_option comma).bind fun _ commaNew =>
      (yields_fillArguments later).bind fun _ laterNew => .pure ⟨?_, ?_⟩
    · simp [shapesOfArguments, valueNew, laterNew.1]
    · simp [Argument.hasComma, commaNew, laterNew.2]

theorem yields_fillOperands (operands : List Expr) (operators : List Token) :
    Yields (fillOperands operands operators) fun new =>
      shapesOfOperands new.1 = shapesOfOperands operands ∧ new.1.length = operands.length ∧
        new.2.length = operators.length := by
  match operands with
  | [] => exact .pure ⟨rfl, rfl, rfl⟩
  | operand :: later =>
    refine operand.yields_fill.bind fun _ operandNew =>
      (yields_fill_option operators.head?).bind fun _ operatorNew =>
      (yields_fillOperands later operators.tail).bind fun _ laterNew => .pure ⟨?_, ?_, ?_⟩
    · simp [shapesOfOperands, operandNew, laterNew.1]
    · simp [laterNew.2.1]
    · exact length_toList_append operatorNew laterNew.2.2

theorem yields_fillElements (elements : List CollectionElement) :
    Yields (fillElements elements) fun new =>
      shapesOfElements new = shapesOfElements elements ∧
        new.map CollectionElement.hasComma = elements.map CollectionElement.hasComma := by
  match elements with
  | [] => exact .pure ⟨rfl, rfl⟩
  | .value value comma :: later =>
    simp only [fillElements, CollectionElement.fill, bind_assoc, pure_bind]
    refine value.yields_fill.bind fun _ valueNew =>
      (yields_fill_option comma).bind fun _ commaNew =>
      (yields_fillElements later).bind fun _ laterNew => .pure ⟨?_, ?_⟩
    · simp [shapesOfElements, valueNew, laterNew.1]
    · simp [CollectionElement.hasComma, commaNew, laterNew.2]
  | .entry key colon value comma :: later =>
    simp only [fillElements, CollectionElement.fill, bind_assoc, pure_bind]
    refine key.yields_fill.bind fun _ keyNew => .after fun _ =>
      value.yields_fill.bind fun _ valueNew => (yields_fill_option comma).bind fun _ commaNew =>
      (yields_fillElements later).bind fun _ laterNew => .pure ⟨?_, ?_⟩
    · simp [shapesOfElements, keyNew, valueNew, laterNew.1]
    · simp [CollectionElement.hasComma, commaNew, laterNew.2]

theorem Closure.yields_fill (closure : Closure) :
    Yields closure.fill fun new => new.shapes = closure.shapes := by
  match closure with
  | ⟨left, signature, statements, right⟩ =>
    exact .after fun _ => .after fun _ => (yields_fillStatements statements).bind fun _ new =>
      .after fun _ => .pure new

theorem yields_fillClosure? (closure : Option Closure) :
    Yields (fillClosure? closure) fun new =>
      shapesOfClosure? new = shapesOfClosure? closure ∧ new.isSome = closure.isSome := by
  match closure with
  | none => exact .pure ⟨rfl, rfl⟩
  | some closure => exact closure.yields_fill.map fun _ new => ⟨new, rfl⟩

theorem Statement.yields_fill (statement : Statement) :
    Yields statement.fill fun new => new.shapes = statement.shapes := by
  match statement with
  | ⟨item, semicolon⟩ =>
    exact item.yields_fill.bind fun _ new => .after fun _ => .pure new

/-- So have some statements. -/
theorem yields_fillStatements (statements : List Statement) :
    Yields (fillStatements statements) fun new =>
      shapesOfStatements new = shapesOfStatements statements := by
  match statements with
  | [] => exact .pure rfl
  | statement :: later =>
    refine statement.yields_fill.bind fun _ new =>
      (yields_fillStatements later).bind fun _ laterNew => .pure ?_
    simp [shapesOfStatements, new, laterNew]

theorem Item.yields_fill (item : Item) :
    Yields item.fill fun new => new.shapes = item.shapes := by
  match item with
  | .expr expr => exact expr.yields_fill.map fun _ new => new
  | .decl decl => exact decl.yields_fill.map fun _ new => new
  | .returning keyword value =>
    exact .after fun _ => (yields_fillExpr? value).bind fun _ new => .pure new
  | .throwing keyword value => exact .after fun _ => value.yields_fill.bind fun _ new => .pure new
  | .conditional statement => exact statement.yields_fill.map fun _ new => new
  | .guarding keyword conditions elseKeyword body =>
    refine .after fun _ => (yields_fillConditions conditions).bind fun _ conditionsNew =>
      .after fun _ => body.yields_fill.bind fun _ bodyNew => .pure ?_
    simp [Item.shapes, conditionsNew.1, conditionsNew.2, bodyNew]
  | .forIn keyword modifiers pattern type inKeyword sequence filter body =>
    refine .after fun _ => .after fun _ => .after fun _ => .after fun _ => .after fun _ =>
      sequence.yields_fill.bind fun _ sequenceNew =>
      (yields_fillClause? filter).bind fun _ filterNew =>
      body.yields_fill.bind fun _ bodyNew => .pure ?_
    simp [Item.shapes, sequenceNew, filterNew, bodyNew]
  | .whileLoop keyword conditions body =>
    refine .after fun _ => (yields_fillConditions conditions).bind fun _ conditionsNew =>
      body.yields_fill.bind fun _ bodyNew => .pure ?_
    simp [Item.shapes, conditionsNew.1, conditionsNew.2, bodyNew]
  | .repeatLoop keyword body whileKeyword condition =>
    refine .after fun _ => body.yields_fill.bind fun _ bodyNew => .after fun _ =>
      condition.yields_fill.bind fun _ conditionNew => .pure ?_
    simp [Item.shapes, bodyNew, conditionNew]
  | .doCatch keyword throwsClause body catches =>
    refine .after fun _ => .after fun _ => body.yields_fill.bind fun _ bodyNew =>
      (yields_fillCatches catches).bind fun _ catchesNew => .pure ?_
    simp [Item.shapes, bodyNew, catchesNew]
  | .switching keyword subject left cases right =>
    refine .after fun _ => subject.yields_fill.bind fun _ subjectNew => .after fun _ =>
      (yields_fillCases cases).bind fun _ casesNew => .after fun _ => .pure ?_
    simp [Item.shapes, subjectNew, casesNew]
  | .deferring keyword body => exact .after fun _ => body.yields_fill.bind fun _ new => .pure new
  | .raw tokens => exact fun _ => rfl

theorem CodeBlock.yields_fill (block : CodeBlock) :
    Yields block.fill fun new => new.shapes = block.shapes := by
  match block with
  | ⟨left, statements, right⟩ =>
    exact .after fun _ => (yields_fillStatements statements).bind fun _ new =>
      .after fun _ => .pure new

theorem yields_fillBlock? (block : Option CodeBlock) :
    Yields (fillBlock? block) fun new => shapesOfBlock? new = shapesOfBlock? block := by
  match block with
  | none => exact .pure rfl
  | some block => exact block.yields_fill.map fun _ new => new

theorem IfStatement.yields_fill (statement : IfStatement) :
    Yields statement.fill fun new => new.shapes = statement.shapes := by
  match statement with
  | ⟨keyword, conditions, body, alternative⟩ =>
    refine .after fun _ => (yields_fillConditions conditions).bind fun _ conditionsNew =>
      body.yields_fill.bind fun _ bodyNew =>
      alternative.yields_fill.bind fun _ alternativeNew => .pure ?_
    simp [IfStatement.shapes, conditionsNew.1, conditionsNew.2, bodyNew, alternativeNew]

theorem ElseClause.yields_fill (alternative : ElseClause) :
    Yields alternative.fill fun new => new.shapes = alternative.shapes := by
  match alternative with
  | .absent => exact .pure rfl
  | .block keyword body => exact .after fun _ => body.yields_fill.bind fun _ new => .pure new
  | .chained keyword next => exact .after fun _ => next.yields_fill.bind fun _ new => .pure new

theorem yields_fillConditions (conditions : List Condition) :
    Yields (fillConditions conditions) fun new =>
      shapesOfConditions new = shapesOfConditions conditions ∧
        new.map Condition.hasComma = conditions.map Condition.hasComma := by
  match conditions with
  | [] => exact .pure ⟨rfl, rfl⟩
  | .expr expr comma :: later =>
    simp only [fillConditions, Condition.fill, bind_assoc, pure_bind]
    refine expr.yields_fill.bind fun _ exprNew => (yields_fill_option comma).bind fun _ commaNew =>
      (yields_fillConditions later).bind fun _ laterNew => .pure ⟨?_, ?_⟩
    · simp [shapesOfConditions, exprNew, laterNew.1]
    · simp [Condition.hasComma, commaNew, laterNew.2]
  | .binding specifier pattern type initializer comma :: later =>
    simp only [fillConditions, Condition.fill, bind_assoc, pure_bind]
    refine .after fun _ => .after fun _ => .after fun _ =>
      (yields_fillClause? initializer).bind fun _ initializerNew =>
      (yields_fill_option comma).bind fun _ commaNew =>
      (yields_fillConditions later).bind fun _ laterNew => .pure ⟨?_, ?_⟩
    · simp [shapesOfConditions, initializerNew, laterNew.1]
    · simp [Condition.hasComma, commaNew, laterNew.2]

theorem Clause.yields_fill (clause : Clause) :
    Yields clause.fill fun new => new.shapes = clause.shapes := by
  match clause with
  | ⟨mark, value⟩ => exact .after fun _ => value.yields_fill.bind fun _ new => .pure new

theorem yields_fillClause? (clause : Option Clause) :
    Yields (fillClause? clause) fun new => shapesOfClause? new = shapesOfClause? clause := by
  match clause with
  | none => exact .pure rfl
  | some clause => exact clause.yields_fill.map fun _ new => new

theorem yields_fillCatches (catches : List CatchClause) :
    Yields (fillCatches catches) fun new => shapesOfCatches new = shapesOfCatches catches := by
  match catches with
  | [] => exact .pure rfl
  | ⟨keyword, pattern, body⟩ :: later =>
    simp only [fillCatches, CatchClause.fill, bind_assoc, pure_bind]
    refine .after fun _ => .after fun _ => body.yields_fill.bind fun _ bodyNew =>
      (yields_fillCatches later).bind fun _ laterNew => .pure ?_
    simp [shapesOfCatches, bodyNew, laterNew]

theorem yields_fillCases (cases : List SwitchCase) :
    Yields (fillCases cases) fun new => shapesOfCases new = shapesOfCases cases := by
  match cases with
  | [] => exact .pure rfl
  | ⟨label, statements⟩ :: later =>
    simp only [fillCases, SwitchCase.fill, bind_assoc, pure_bind]
    refine .after fun _ => (yields_fillStatements statements).bind fun _ statementsNew =>
      (yields_fillCases later).bind fun _ laterNew => .pure ?_
    simp [shapesOfCases, statementsNew, laterNew]

theorem Decl.yields_fill (decl : Decl) :
    Yields decl.fill fun new => new.shapes = decl.shapes := by
  match decl with
  | .importing decl | .raw decl => exact fun _ => rfl
  | .type header members =>
    refine header.yields_fill.bind fun _ headerNew =>
      members.yields_fill.bind fun _ membersNew => .pure ?_
    simp [Decl.shapes, headerNew, membersNew]
  | .function header body | .initializer header body | .finalizer header body =>
    exact .after fun _ => (yields_fillBlock? body).bind fun _ new => .pure new
  | .variable header bindings =>
    refine .after fun _ => (yields_fillBindings bindings).bind fun _ new => .pure ?_
    simp [Decl.shapes, new.1, new.2]

theorem yields_fillBindings (bindings : List PatternBinding) :
    Yields (fillBindings bindings) fun new =>
      shapesOfBindings new = shapesOfBindings bindings ∧
        new.map PatternBinding.hasComma = bindings.map PatternBinding.hasComma := by
  match bindings with
  | [] => exact .pure ⟨rfl, rfl⟩
  | ⟨pattern, type, initializer, accessor, comma⟩ :: later =>
    simp only [fillBindings, PatternBinding.fill, bind_assoc, pure_bind]
    refine .after fun _ => .after fun _ =>
      (yields_fillClause? initializer).bind fun _ initializerNew =>
      (yields_fillBlock? accessor).bind fun _ accessorNew =>
      (yields_fill_option comma).bind fun _ commaNew =>
      (yields_fillBindings later).bind fun _ laterNew => .pure ⟨?_, ?_⟩
    · simp [shapesOfBindings, initializerNew, accessorNew, laterNew.1]
    · simp [PatternBinding.hasComma, commaNew, laterNew.2]

end

/-! ### Other trivia -/

/-- Trivia is no part of the shapes of an expression. -/
@[simp] theorem Expr.shapes_setLeading (expr : Expr) (trivia : Trivia) :
    (Node.setLeading expr trivia).shapes = expr.shapes :=
  expr.yields_fill _

@[simp] theorem Expr.shapes_setTrailing (expr : Expr) (trivia : Trivia) :
    (Node.setTrailing expr trivia).shapes = expr.shapes :=
  expr.yields_fill _

/-- Trivia is no part of the shapes of a statement. -/
@[simp] theorem Statement.shapes_setLeading (statement : Statement) (trivia : Trivia) :
    (Node.setLeading statement trivia).shapes = statement.shapes :=
  statement.yields_fill _

@[simp] theorem Statement.shapes_setTrailing (statement : Statement) (trivia : Trivia) :
    (Node.setTrailing statement trivia).shapes = statement.shapes :=
  statement.yields_fill _

end SuiteMigration
